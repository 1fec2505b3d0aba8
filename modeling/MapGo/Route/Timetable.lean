import MapGo.Route.Simulation

/-! The timetable of an evaluation. A walk takes one leg after the other, and the order is feasible
exactly where no stop has a conflict when it is reached and the whole trip keeps its limits. Orders
with the same tasks and travel times have one timetable. -/
namespace MapGo.Route

/-- A stop of a walk: its task, its candidate and the edge to it. -/
structure Leg where
  task : PlanningTask
  node : CandidateNode
  edge : RouteEdge

/-- The clock when the stop is reached, before any waiting. -/
def Leg.reaches (leg : Leg) (before : DateTime) : DateTime :=
  before.add (secondsDelta leg.edge.durationSeconds)

def Leg.leaves (leg : Leg) (reached : DateTime) : DateTime :=
  (arrival leg.task reached).add (minutesDelta
    (max leg.task.serviceDurationMinutes (leg.task.minServiceDurationMinutes.getD 0)))

/-- The legs with the times at which their stops are reached. -/
def timetable : DateTime → List Leg → List (Leg × DateTime)
  | _, [] => []
  | before, leg :: rest =>
      (leg, leg.reaches before) :: timetable (leg.leaves (leg.reaches before)) rest

/-- The legs of an order from a point of the matrix. -/
inductive Along (ctx : Context) (selected : Nat → Option CandidateNode) :
    Nat → List Nat → List Leg → Prop where
  | nil (previous : Nat) : Along ctx selected previous [] []
  | cons {previous taskIndex : Nat} {order : List Nat} {leg : Leg} {rest : List Leg}
      (chosen : selected taskIndex = some leg.node)
      (travels : ctx.matrix.edge previous leg.node.matrixIndex = some leg.edge)
      (known : ctx.tasks[taskIndex]? = some leg.task)
      (onward : Along ctx selected leg.node.matrixIndex order rest) :
      Along ctx selected previous (taskIndex :: order) (leg :: rest)

/-- The limits on the whole trip, apart from the order of its tasks. -/
structure TripAllowed (ctx : Context) (nodes : List CandidateNode) (finish : DateTime)
    (distance : ℚ) : Prop where
  duration : ∀ limit, ctx.constraints.maxTotalDurationMinutes = some limit →
    finish.secondsSince ctx.departure / 60 ≤ limit
  latestReturn : ∀ latest, ctx.constraints.latestReturnTime = some latest →
    finish.instant + ctx.buffer ≤ latest.instant
  walking : ∀ limit, ctx.constraints.maxWalkingMeters = some limit → ctx.mode = .walking →
    distance ≤ limit
  cost : ∀ limit, ctx.constraints.maxTotalCostYuan = some limit →
    (∀ node ∈ nodes, node.estimatedCostYuan.isSome = true) ∧
      (nodes.map fun node => node.estimatedCostYuan.getD 0).sum ≤ limit
  areas : ∀ area ∈ ctx.constraints.mustPassAreas, ∃ node ∈ nodes, ∃ district,
    node.district = some district ∧ district ≠ "" ∧ contains district area = true
  detour : ∀ limit baseline, ctx.constraints.maxDetourMeters = some limit →
    ctx.baselineDistanceMeters = some baseline → max 0 (distance - baseline) ≤ limit

variable {ctx : Context} {selected : Nat → Option CandidateNode} {walk after : Walk}
  {order : List Nat} {legs : List Leg} {e : RouteEvaluation} {before : DateTime} {previous : Nat}

/-- What the walk along some legs adds to the lists and totals it starts with. -/
structure Walk.Took (ctx : Context) (walk : Walk) (legs : List Leg) (after : Walk) : Prop where
  previous : after.previous = ((legs.getLast?.map fun leg => leg.node.matrixIndex)).getD walk.previous
  cursor : after.cursor =
    ((timetable walk.cursor legs).getLast?.map fun entry => entry.1.leaves entry.2).getD walk.cursor
  arrivals : after.arrivals = walk.arrivals ++
    (timetable walk.cursor legs).map fun entry => arrival entry.1.task entry.2
  departures : after.departures = walk.departures ++
    (timetable walk.cursor legs).map fun entry => entry.1.leaves entry.2
  conflicts : after.conflicts = walk.conflicts ++
    (timetable walk.cursor legs).flatMap fun entry =>
      stopConflicts ctx entry.1.task entry.1.node entry.2
  nodes : after.selectedNodes = walk.selectedNodes ++ legs.map Leg.node
  distance : after.totalDistance = walk.totalDistance +
    (legs.map fun leg => leg.edge.distanceMeters).sum
  cost : after.totalCost = walk.totalCost +
    (legs.map fun leg => leg.node.estimatedCostYuan.getD 0).sum
  unknown : after.costUnknown = (walk.costUnknown ||
    legs.any fun leg => leg.node.estimatedCostYuan.isNone)
  districts : after.visitedDistricts = walk.visitedDistricts ++
    legs.flatMap fun leg => (leg.node.district.filter (· ≠ "")).toList

/-- A loop over an order takes the legs of the order. -/
theorem visits_took (ran : order.foldlM (visit ctx selected) walk = some after) :
    ∃ legs, Along ctx selected walk.previous order legs ∧ walk.Took ctx legs after := by
  induction order generalizing walk with
  | nil =>
      obtain rfl := Option.some.inj ran
      refine ⟨[], .nil _, ?_⟩
      constructor <;> simp [timetable]
  | cons taskIndex rest ih =>
      rw [List.foldlM_cons] at ran
      obtain ⟨middle, visited, ran⟩ := Option.bind_eq_some_iff.mp ran
      obtain ⟨node, edge, task, chosen, travels, known, rfl⟩ := visit_eq_some_iff.mp visited
      obtain ⟨legs, onward, took⟩ := ih ran
      refine ⟨⟨task, node, edge⟩ :: legs, .cons chosen travels known onward, ?_⟩
      constructor
      · rw [took.previous, List.getLast?_cons]
        cases legs.getLast? <;> rfl
      · have clock : (walk.passed ctx task node edge).cursor =
            Leg.leaves ⟨task, node, edge⟩ (Leg.reaches ⟨task, node, edge⟩ walk.cursor) := rfl
        rw [took.cursor, clock, timetable, List.getLast?_cons]
        cases (timetable (Leg.leaves ⟨task, node, edge⟩ _) legs).getLast? <;> rfl
      · rw [took.arrivals, Walk.passed, List.append_assoc]
        rfl
      · rw [took.departures, Walk.passed, List.append_assoc]
        rfl
      · rw [took.conflicts, Walk.passed, List.append_assoc]
        rfl
      · rw [took.nodes, Walk.passed, List.append_assoc]
        rfl
      · rw [took.distance, Walk.passed, List.map_cons, List.sum_cons, add_assoc]
      · rw [took.cost, Walk.passed, List.map_cons, List.sum_cons, add_assoc]
      · rw [took.unknown, Walk.passed, List.any_cons, Bool.or_assoc]
      · rw [took.districts, Walk.passed, List.append_assoc]
        rfl

/-- The legs of an order can be taken. -/
theorem Along.runs (along : Along ctx selected walk.previous order legs) :
    ∃ after, order.foldlM (visit ctx selected) walk = some after := by
  generalize start : walk.previous = previous at along
  induction along generalizing walk with
  | nil => exact ⟨walk, rfl⟩
  | @cons previous taskIndex order leg rest chosen travels known onward ih =>
      subst start
      have visited : visit ctx selected walk taskIndex =
          some (walk.passed ctx leg.task leg.node leg.edge) :=
        visit_eq_some_iff.mpr ⟨leg.node, leg.edge, leg.task, chosen, travels, known, rfl⟩
      have later : ∃ after, order.foldlM (visit ctx selected)
          (walk.passed ctx leg.task leg.node leg.edge) = some after := ih rfl
      obtain ⟨after, ran⟩ := later
      refine ⟨after, ?_⟩
      rw [List.foldlM_cons, visited]
      exact ran

theorem Along.unique {legs' : List Leg} (along : Along ctx selected previous order legs)
    (along' : Along ctx selected previous order legs') : legs = legs' := by
  induction along generalizing legs' with
  | nil =>
      cases along'
      rfl
  | @cons previous taskIndex order leg rest chosen travels known onward ih =>
      cases along' with
      | @cons _ _ _ leg' rest' chosen' travels' known' onward' =>
          obtain ⟨task, node, edge⟩ := leg
          obtain ⟨task', node', edge'⟩ := leg'
          obtain rfl := Option.some.inj (chosen.symm.trans chosen')
          obtain rfl := Option.some.inj (travels.symm.trans travels')
          obtain rfl := Option.some.inj (known.symm.trans known')
          rw [ih onward']

/-- The trip has no conflict where it keeps its limits. -/
theorem tripConflicts_eq_nil_iff {nodes : List CandidateNode}
    (cost : after.totalCost = (nodes.map fun node => node.estimatedCostYuan.getD 0).sum)
    (unknown : after.costUnknown = nodes.any fun node => node.estimatedCostYuan.isNone)
    (districts : after.visitedDistricts =
      nodes.flatMap fun node => (node.district.filter (· ≠ "")).toList) :
    tripConflicts ctx after = [] ↔ TripAllowed ctx nodes after.cursor after.totalDistance := by
  have fields : TripAllowed ctx nodes after.cursor after.totalDistance ↔ _ ∧ _ ∧ _ ∧ _ ∧ _ ∧ _ :=
    ⟨fun ⟨duration, latestReturn, walking, cost, areas, detour⟩ =>
        ⟨duration, latestReturn, walking, cost, areas, detour⟩,
      fun ⟨duration, latestReturn, walking, cost, areas, detour⟩ =>
        ⟨duration, latestReturn, walking, cost, areas, detour⟩⟩
  have visited (district : String) : district ∈ after.visitedDistricts ↔
      ∃ node ∈ nodes, node.district = some district ∧ district ≠ "" := by
    simp [districts, Option.filter_eq_some_iff]
  rw [fields]
  simp only [tripConflicts, List.flatten_eq_nil_iff, List.forall_mem_cons, List.not_mem_nil,
    false_implies, implies_true, and_true]
  refine and_congr ?_ (and_congr ?_ (and_congr ?_ (and_congr ?_ (and_congr ?_ ?_))))
  · cases ctx.constraints.maxTotalDurationMinutes <;> simp
  · cases ctx.constraints.latestReturnTime <;> simp [DateTime.sub, sub_lt_iff_lt_add]
  · cases ctx.constraints.maxWalkingMeters <;> simp
  · cases ctx.constraints.maxTotalCostYuan with
    | none => simp
    | some limit =>
        rw [cost, unknown]
        cases priced : nodes.any fun node => node.estimatedCostYuan.isNone with
        | true =>
            obtain ⟨node, member, missing⟩ := List.any_eq_true.mp priced
            refine iff_of_false (by simp) fun within => ?_
            have known := (within limit rfl).1 node member
            rw [Option.isNone_iff_eq_none.mp missing] at known
            contradiction
        | false =>
            have known : ∀ node ∈ nodes, node.estimatedCostYuan.isSome = true := by
              simpa [Option.isSome_iff_ne_none] using priced
            simpa using fun _ => known
  · by_cases asked : ctx.constraints.mustPassAreas = []
    · simp [asked]
    · rw [if_neg asked]
      split
      · rename_i unseen
        obtain ⟨area, member⟩ := List.exists_mem_of_ne_nil _ asked
        refine iff_of_false (by simp) fun passed => ?_
        obtain ⟨node, inside, district, named, known, -⟩ := passed area member
        have there := (visited district).mpr ⟨node, inside, named, known⟩
        rw [unseen] at there
        contradiction
      · have passes (area : String) : (after.visitedDistricts.any fun district =>
              contains district area) = true ↔ ∃ node ∈ nodes, ∃ district,
                node.district = some district ∧ district ≠ "" ∧ contains district area = true := by
          simp only [List.any_eq_true, visited]
          constructor
          · rintro ⟨district, ⟨node, inside, named, known⟩, found⟩
            exact ⟨node, inside, district, named, known, found⟩
          · rintro ⟨node, inside, district, named, known, found⟩
            exact ⟨district, ⟨node, inside, named, known⟩, found⟩
        simp [List.filter_eq_nil_iff, passes]
  · cases ctx.constraints.maxDetourMeters <;> cases ctx.baselineDistanceMeters <;> simp

theorem start_conflicts_eq_nil_iff : (Walk.start ctx order).conflicts = [] ↔
    relativeOrderSatisfied order ctx.constraints.requiredTaskOrder = true := by
  have free : relativeOrderSatisfied order [] = true := rfl
  by_cases asked : ctx.constraints.requiredTaskOrder = []
  · simp [Walk.start, asked, free]
  · simp [Walk.start, asked]

/-- What an evaluation reports of the legs of its order. -/
structure RouteEvaluation.Takes (ctx : Context) (legs : List Leg) (e : RouteEvaluation) : Prop where
  nodes : e.selectedNodes = legs.map Leg.node
  arrivals : e.arrivals =
    (timetable ctx.departure legs).map fun entry => arrival entry.1.task entry.2
  departures : e.departures =
    (timetable ctx.departure legs).map fun entry => entry.1.leaves entry.2
  distance : e.totalDistance = (legs.map fun leg => leg.edge.distanceMeters).sum +
    ((homeward ctx e.selectedNodes).map RouteEdge.distanceMeters).getD 0
  feasible : e.feasible = true ↔
    relativeOrderSatisfied e.order ctx.constraints.requiredTaskOrder = true ∧
      (∀ entry ∈ timetable ctx.departure legs,
        stopConflicts ctx entry.1.task entry.1.node entry.2 = []) ∧
      TripAllowed ctx e.selectedNodes (e.finish ctx) e.totalDistance

theorem evaluate_takes (evaluated : evaluateJointOrder ctx order selected = some e) :
    e.order = order ∧ ∃ legs, Along ctx selected 0 order legs ∧ e.Takes ctx legs := by
  obtain ⟨walk, after, ran, returned, rfl⟩ := evaluateJointOrder_eq_some_iff.mp evaluated
  obtain ⟨legs, along, took⟩ := visits_took ran
  have nodes : walk.selectedNodes = legs.map Leg.node := took.nodes
  have back := returnToOrigin_returned returned (by
    rw [took.previous, nodes, List.getLast?_map]
    cases legs.getLast? <;> rfl)
  have departures : walk.departures =
      (timetable ctx.departure legs).map fun entry => entry.1.leaves entry.2 := took.departures
  have finish : (after.report ctx order).finish ctx = after.cursor := by
    have clock : walk.cursor = walk.departures.getLast?.getD ctx.departure := by
      rw [departures, List.getLast?_map]
      exact took.cursor
    rw [RouteEvaluation.finish, back.cursor, clock, ← back.departures, ← back.nodes]
    rfl
  have visited : after.selectedNodes = legs.map Leg.node := back.nodes.trans nodes
  have trip : tripConflicts ctx after = [] ↔
      TripAllowed ctx after.selectedNodes after.cursor after.totalDistance := by
    apply tripConflicts_eq_nil_iff
    · rw [visited, back.totalCost, took.cost, List.map_map]
      exact zero_add _
    · rw [visited, back.costUnknown, took.unknown, List.any_map]
      rfl
    · rw [visited, back.districts, took.districts, List.flatMap_map]
      rfl
  refine ⟨rfl, legs, along, visited, ?_, ?_, ?_, ?_⟩
  · exact back.arrivals.trans took.arrivals
  · exact back.departures.trans departures
  · have metres : walk.totalDistance = (legs.map fun leg => leg.edge.distanceMeters).sum :=
      took.distance.trans (zero_add _)
    change after.totalDistance = _
    rw [back.distance, metres, ← back.nodes]
    rfl
  · have conflicts : after.conflicts = (Walk.start ctx order).conflicts ++
        (timetable ctx.departure legs).flatMap fun entry =>
          stopConflicts ctx entry.1.task entry.1.node entry.2 := back.conflicts.trans took.conflicts
    rw [finish]
    change (after.conflicts ++ tripConflicts ctx after).isEmpty = true ↔ _
    rw [List.isEmpty_iff, List.append_eq_nil_iff, conflicts, List.append_eq_nil_iff,
      start_conflicts_eq_nil_iff, List.flatMap_eq_nil_iff, trip, and_assoc]
    rfl

/-- An order with legs and a way home can be evaluated. -/
theorem evaluate_isSome (along : Along ctx selected 0 order legs)
    (home : ∀ leg, legs.getLast? = some leg →
      ∃ edge, ctx.matrix.edge leg.node.matrixIndex 0 = some edge) :
    ∃ e, evaluateJointOrder ctx order selected = some e := by
  have runs : ∃ walk, order.foldlM (visit ctx selected) (Walk.start ctx order) = some walk :=
    Along.runs along
  obtain ⟨walk, ran⟩ := runs
  obtain ⟨legs', along', took⟩ := visits_took ran
  obtain rfl := Along.unique along along'
  have back : ∃ after, returnToOrigin ctx walk = some after := by
    by_cases going : ctx.constraints.mustReturnToOrigin = true ∧ walk.selectedNodes ≠ []
    · cases last : legs.getLast? with
      | none =>
          have empty : walk.selectedNodes = [] := by
            rw [took.nodes, List.getLast?_eq_none_iff.mp last]
            rfl
          exact absurd empty going.2
      | some leg =>
          obtain ⟨edge, found⟩ := home leg last
          have previous : walk.previous = leg.node.matrixIndex := by
            rw [took.previous, last]
            rfl
          exact ⟨walk.backHome edge, returnToOrigin_eq_some_iff.mpr
            (.inl ⟨going, edge, previous ▸ found, rfl⟩)⟩
    · exact ⟨walk, returnToOrigin_eq_some_iff.mpr (.inr ⟨going, rfl⟩)⟩
  obtain ⟨after, returned⟩ := back
  exact ⟨_, evaluateJointOrder_eq_some_iff.mpr ⟨walk, after, ran, returned, rfl⟩⟩

/-- What the clock sees of a leg. -/
def Leg.pace (leg : Leg) : PlanningTask × ℚ := (leg.task, leg.edge.durationSeconds)

theorem timetable_legs (before : DateTime) (legs : List Leg) :
    (timetable before legs).map Prod.fst = legs := by
  induction legs generalizing before with
  | nil => rfl
  | cons leg rest ih => rw [timetable, List.map_cons, ih]

/-- Legs of the same pace reach their stops at the same times. -/
theorem timetable_congr (before : DateTime) {legs' : List Leg} (same : legs.map Leg.pace = legs'.map Leg.pace) :
    (timetable before legs).map (fun entry => (entry.1.task, entry.2)) =
      (timetable before legs').map fun entry => (entry.1.task, entry.2) := by
  induction legs generalizing before legs' with
  | nil =>
      rw [List.map_eq_nil_iff.mp same.symm]
  | cons leg rest ih =>
      cases legs' with
      | nil => contradiction
      | cons leg' rest' =>
          obtain ⟨first, others⟩ := List.cons.inj same
          obtain ⟨task, duration⟩ := Prod.mk.inj first
          have reached : leg.reaches before = leg'.reaches before := by
            simp only [Leg.reaches, duration]
          have left : leg.leaves (leg.reaches before) = leg'.leaves (leg'.reaches before) := by
            simp only [Leg.leaves, reached, task]
          simp only [timetable, List.map_cons, task, reached, ih _ others]
          rw [← reached, left, reached]

end MapGo.Route
