import MapGo.Route.Evaluate

/-! What a feasible evaluation says of its timeline. A walk keeps the conflicts of every
stop it has passed; without conflicts each stop and the whole trip keep the hard
constraints, except that waiting for an earliest arrival may pass an appointment. -/
namespace MapGo.Route

/-- The earliest arrival does not lie behind the appointment. -/
def PlanningTask.WindowAgrees (task : PlanningTask) : Prop :=
  ∀ appointment earliest, task.appointmentTime = some appointment →
    task.earliestArrival = some earliest → earliest.instant ≤ appointment.instant

/-- The hard constraints on a stop served from `arrived` on. -/
structure StopHonoured (ctx : Context) (task : PlanningTask) (node : CandidateNode)
    (arrived : DateTime) : Prop where
  deadline : ∀ deadline, task.deadline = some deadline →
    arrived.instant + ctx.buffer ≤ deadline.instant
  appointment : ∀ appointment, task.appointmentTime = some appointment →
    arrived.instant ≤ appointment.instant
  earliest : ∀ earliest, task.earliestArrival = some earliest →
    earliest.instant ≤ arrived.instant
  rating : ∀ limit, task.minRating = some limit → ∃ rating, node.rating = some rating ∧ limit ≤ rating
  opening : task.requireOpen = true → node.openNow ≠ some false
  access : task.requireWheelchairAccessible = true ∨ ctx.constraints.wheelchairAccessible = true ∨
    0 < ctx.constraints.wheelchairUsers → node.wheelchairAccessible = some true
  allowed : ctx.constraints.allowedDistricts ≠ [] →
    ∃ district ∈ ctx.constraints.allowedDistricts, node.district = some district
  avoided : ∀ district, node.district = some district → district ≠ "" →
    ∀ area ∈ ctx.constraints.avoidAreas, contains district area = false
  cost : ∀ cost limit, node.estimatedCostYuan = some cost → task.maxCostYuan = some limit →
    cost ≤ limit

/-- What is asked of a stop served from `arrived` on, apart from its appointment and window. -/
structure StopAllowed (ctx : Context) (task : PlanningTask) (node : CandidateNode)
    (arrived : DateTime) : Prop where
  deadline : ∀ deadline, task.deadline = some deadline →
    arrived.instant + ctx.buffer ≤ deadline.instant
  rating : ∀ limit, task.minRating = some limit → ∃ rating, node.rating = some rating ∧ limit ≤ rating
  opening : task.requireOpen = true → node.openNow ≠ some false
  access : task.requireWheelchairAccessible = true ∨ ctx.constraints.wheelchairAccessible = true ∨
    0 < ctx.constraints.wheelchairUsers → node.wheelchairAccessible = some true
  allowed : ctx.constraints.allowedDistricts ≠ [] →
    ∃ district ∈ ctx.constraints.allowedDistricts, node.district = some district
  avoided : ∀ district, node.district = some district → district ≠ "" →
    ∀ area ∈ ctx.constraints.avoidAreas, contains district area = false
  cost : ∀ cost limit, node.estimatedCostYuan = some cost → task.maxCostYuan = some limit →
    cost ≤ limit

/-- The edges along the candidates, from a point of the matrix. -/
def legs (matrix : RouteMatrix) : Nat → List CandidateNode → Option (List RouteEdge)
  | _, [] => some []
  | previous, node :: rest =>
      (matrix.edge previous node.matrixIndex).bind fun edge =>
        (legs matrix node.matrixIndex rest).map (edge :: ·)

/-- The leg back to the origin, where the trip has one. -/
def homeward (ctx : Context) (nodes : List CandidateNode) : Option RouteEdge :=
  if ctx.constraints.mustReturnToOrigin then
    nodes.getLast?.bind fun node => ctx.matrix.edge node.matrixIndex 0
  else none

/-- The last departure and the way home. -/
def RouteEvaluation.finish (ctx : Context) (e : RouteEvaluation) : DateTime :=
  (e.departures.getLast?.getD ctx.departure).add
    (((homeward ctx e.selectedNodes).map fun edge => secondsDelta edge.durationSeconds).getD 0)

/-- The hard constraints on the whole trip. -/
structure TripHonoured (ctx : Context) (e : RouteEvaluation) : Prop where
  order : ctx.constraints.requiredTaskOrder.Pairwise fun first second =>
    let places := e.order.map Int.ofNat
    first ∈ places → second ∈ places → places.idxOf first ≤ places.idxOf second
  duration : ∀ limit, ctx.constraints.maxTotalDurationMinutes = some limit →
    (e.finish ctx).secondsSince ctx.departure / 60 ≤ limit
  latestReturn : ∀ latest, ctx.constraints.latestReturnTime = some latest →
    (e.finish ctx).instant + ctx.buffer ≤ latest.instant
  walking : ∀ limit, ctx.constraints.maxWalkingMeters = some limit → ctx.mode = .walking →
    e.totalDistance ≤ limit
  cost : ∀ limit, ctx.constraints.maxTotalCostYuan = some limit →
    ∃ costs : List ℚ, e.selectedNodes.map CandidateNode.estimatedCostYuan = costs.map some ∧
      costs.sum ≤ limit
  areas : ∀ area ∈ ctx.constraints.mustPassAreas, ∃ node ∈ e.selectedNodes,
    ∃ district, node.district = some district ∧ contains district area = true
  detour : ∀ limit baseline, ctx.constraints.maxDetourMeters = some limit →
    ctx.baselineDistanceMeters = some baseline → max 0 (e.totalDistance - baseline) ≤ limit

/-- The returned timeline follows the selection, and every hard constraint holds of it. -/
structure Honoured (ctx : Context) (selected : Nat → Option CandidateNode)
    (e : RouteEvaluation) : Prop where
  nodes : e.selectedNodes.map some = e.order.map selected
  arrivals : e.arrivals.length = e.order.length
  distance : ∃ edges, legs ctx.matrix 0 e.selectedNodes = some edges ∧
    e.totalDistance = (edges.map RouteEdge.distanceMeters).sum +
      ((homeward ctx e.selectedNodes).map RouteEdge.distanceMeters).getD 0
  stops : ∀ (k : Nat) taskIndex task node arrived, e.order[k]? = some taskIndex →
    ctx.tasks[taskIndex]? = some task → e.selectedNodes[k]? = some node →
    e.arrivals[k]? = some arrived → StopHonoured ctx task node arrived
  trip : TripHonoured ctx e

theorem relativeOrderSatisfied_iff {order : List Nat} {required : List Int} :
    relativeOrderSatisfied order required = true ↔ required.Pairwise fun first second =>
      first ∈ order.map Int.ofNat → second ∈ order.map Int.ofNat →
        (order.map Int.ofNat).idxOf first ≤ (order.map Int.ofNat).idxOf second := by
  let places := order.map Int.ofNat
  let before : Int → Int → Prop := fun first second => places.idxOf first ≤ places.idxOf second
  have total : Std.Total before := ⟨fun _ _ => Nat.le_total _ _⟩
  have trans : IsTrans Int before := ⟨fun _ _ _ first second => Nat.le_trans first second⟩
  have sorted : relativeOrderSatisfied order required = true ↔
      (required.filter (· ∈ places)).Pairwise before := by
    rw [relativeOrderSatisfied, decide_eq_true_eq]
    constructor
    · intro same
      rw [same]
      exact List.pairwise_insertionSort before _
    · intro sorted
      exact sorted.insertionSort_eq.symm
  rw [sorted, List.pairwise_filter]
  simp only [decide_eq_true_eq]
  rfl

variable {ctx : Context} {task : PlanningTask} {node : CandidateNode} {cursor : DateTime}

theorem wait_instant (cursor opening : DateTime) :
    (if cursor.instant < opening.instant then opening else cursor).instant =
      max cursor.instant opening.instant := by
  split
  · exact (max_eq_right (le_of_lt ‹_›)).symm
  · exact (max_eq_left (not_lt.mp ‹_›)).symm

theorem earliest_le_arrival {earliest : DateTime} (window : task.earliestArrival = some earliest) :
    earliest.instant ≤ (arrival task cursor).instant := by
  simp only [arrival, window, wait_instant]
  exact le_max_right ..

/-- In time for the appointment, the arrival passes it only to wait for the window. -/
theorem arrival_le_appointment {appointment : DateTime}
    (booked : task.appointmentTime = some appointment) (reached : cursor.instant ≤ appointment.instant)
    (agrees : task.WindowAgrees) : (arrival task cursor).instant ≤ appointment.instant := by
  have waited : max cursor.instant appointment.instant ≤ appointment.instant := max_le reached le_rfl
  cases window : task.earliestArrival with
  | none =>
      simp only [arrival, booked, window, wait_instant]
      exact waited
  | some earliest =>
      simp only [arrival, booked, window]
      rw [wait_instant, wait_instant]
      exact max_le waited (agrees appointment earliest booked window)

/-- A stop has no conflict where its appointment is not missed and the other constraints hold of
its arrival. -/
theorem stopConflicts_eq_nil_iff : stopConflicts ctx task node cursor = [] ↔
    (∀ appointment, task.appointmentTime = some appointment →
      cursor.instant ≤ appointment.instant) ∧ StopAllowed ctx task node (arrival task cursor) := by
  have fields : StopAllowed ctx task node (arrival task cursor) ↔ _ ∧ _ ∧ _ ∧ _ ∧ _ ∧ _ ∧ _ :=
    ⟨fun ⟨deadline, rating, opening, access, allowed, avoided, cost⟩ =>
        ⟨deadline, rating, opening, access, allowed, avoided, cost⟩,
      fun ⟨deadline, rating, opening, access, allowed, avoided, cost⟩ =>
        ⟨deadline, rating, opening, access, allowed, avoided, cost⟩⟩
  rw [fields]
  simp only [stopConflicts, List.flatten_eq_nil_iff, List.forall_mem_cons, List.not_mem_nil,
    false_implies, implies_true, and_true]
  refine and_congr ?_ (and_congr ?_ (and_congr ?_ (and_congr ?_ (and_congr ?_ (and_congr ?_
    (and_congr ?_ ?_))))))
  · cases task.appointmentTime <;> simp
  · cases task.deadline <;> simp [DateTime.sub, sub_lt_iff_lt_add]
  · cases task.minRating <;> cases node.rating <;> simp
  · simp
  · simp
  · cases node.district <;> simp
  · cases node.district <;> simp
  · cases node.estimatedCostYuan <;> cases task.maxCostYuan <;> simp

/-- A stop without conflicts keeps its constraints, if its window agrees with its appointment. -/
theorem stopHonoured_of_clear (clear : stopConflicts ctx task node cursor = [])
    (agrees : task.WindowAgrees) : StopHonoured ctx task node (arrival task cursor) := by
  obtain ⟨reached, allowed⟩ := stopConflicts_eq_nil_iff.mp clear
  exact
    { deadline := allowed.deadline
      appointment := fun limit booked => arrival_le_appointment booked (reached limit booked) agrees
      earliest := fun limit window => earliest_le_arrival window
      rating := allowed.rating
      opening := allowed.opening
      access := allowed.access
      allowed := allowed.allowed
      avoided := allowed.avoided
      cost := allowed.cost }

theorem legs_concat {matrix : RouteMatrix} {previous : Nat} {nodes : List CandidateNode}
    {edges : List RouteEdge} {edge : RouteEdge} (along : legs matrix previous nodes = some edges)
    (last : matrix.edge ((nodes.getLast?.map CandidateNode.matrixIndex).getD previous)
      node.matrixIndex = some edge) :
    legs matrix previous (nodes ++ [node]) = some (edges ++ [edge]) := by
  induction nodes generalizing previous edges with
  | nil =>
      cases Option.some.inj along
      simp [legs, show matrix.edge previous node.matrixIndex = some edge from last]
  | cons first rest ih =>
      obtain ⟨head, found, onward⟩ := Option.bind_eq_some_iff.mp along
      obtain ⟨tail, rest', rfl⟩ := Option.map_eq_some_iff.mp onward
      have later := ih rest' (by
        rw [← last, List.getLast?_cons]
        cases rest.getLast? <;> rfl)
      simp only [List.cons_append, legs, found, later, Option.bind_some, Option.map_some]

/-- The walk after the stops of an order; `started` are the conflicts before the first stop. -/
structure Walked (ctx : Context) (selected : Nat → Option CandidateNode) (started : List Conflict)
    (order : List Nat) (walk : Walk) : Prop where
  nodes : walk.selectedNodes.map some = order.map selected
  arrivals : walk.arrivals.length = order.length
  previous : walk.previous = (walk.selectedNodes.getLast?.map CandidateNode.matrixIndex).getD 0
  cursor : walk.cursor = walk.departures.getLast?.getD ctx.departure
  distance : ∃ edges, legs ctx.matrix 0 walk.selectedNodes = some edges ∧
    walk.totalDistance = (edges.map RouteEdge.distanceMeters).sum
  costs : walk.costUnknown = false →
    ∃ costs : List ℚ, walk.selectedNodes.map CandidateNode.estimatedCostYuan = costs.map some ∧
      costs.sum = walk.totalCost
  districts : ∀ district ∈ walk.visitedDistricts,
    ∃ node ∈ walk.selectedNodes, node.district = some district
  started : started <+: walk.conflicts
  stops : walk.conflicts = [] → ∀ (k : Nat) taskIndex task node arrived,
    order[k]? = some taskIndex → ctx.tasks[taskIndex]? = some task →
    walk.selectedNodes[k]? = some node → walk.arrivals[k]? = some arrived →
    ∃ cursor, arrived = arrival task cursor ∧ stopConflicts ctx task node cursor = []

variable {selected : Nat → Option CandidateNode} {started : List Conflict} {order : List Nat}
  {walk after : Walk}

theorem Walked.visit (walked : Walked ctx selected started order walk)
    (visited : visit ctx selected walk taskIndex = some after) :
    Walked ctx selected started (order ++ [taskIndex]) after := by
  simp only [Route.visit, bind, Option.bind_eq_some_iff, pure, Option.some.injEq] at visited
  obtain ⟨node, chosen, edge, travelled, task, present, rfl⟩ := visited
  have size : walk.selectedNodes.length = order.length := by
    simpa using congrArg List.length walked.nodes
  constructor
  · simp only [List.map_append, List.map_cons, List.map_nil, walked.nodes, chosen]
  · simp only [List.length_append, List.length_singleton, walked.arrivals]
  · simp
  · simp
  · obtain ⟨edges, along, total⟩ := walked.distance
    exact ⟨edges ++ [edge], legs_concat along (walked.previous ▸ travelled), by simp [total]⟩
  · intro known
    obtain ⟨known, priced⟩ := Bool.or_eq_false_iff.mp known
    obtain ⟨costs, prices, total⟩ := walked.costs known
    cases price : node.estimatedCostYuan with
    | none => simp [price] at priced
    | some cost => exact ⟨costs ++ [cost], by simp [prices, price], by simp [total]⟩
  · intro district member
    obtain old | new := List.mem_append.mp member
    · obtain ⟨other, inside, same⟩ := walked.districts district old
      exact ⟨other, List.mem_append_left _ inside, same⟩
    · exact ⟨node, by simp, (Option.filter_eq_some_iff.mp (Option.mem_toList.mp new)).1⟩
  · exact walked.started.trans (List.prefix_append ..)
  · intro none k index task' node' arrived atOrder known atNodes atArrivals
    obtain ⟨before, here⟩ := List.append_eq_nil_iff.mp none
    obtain old | new := Nat.lt_or_ge k order.length
    · rw [List.getElem?_append_left old] at atOrder
      rw [List.getElem?_append_left (size ▸ old)] at atNodes
      rw [List.getElem?_append_left (walked.arrivals ▸ old)] at atArrivals
      exact walked.stops before k index task' node' arrived atOrder known atNodes atArrivals
    · have last : k = order.length := by
        have bound := (List.getElem?_eq_some_iff.mp atOrder).1
        rw [List.length_append, List.length_singleton] at bound
        omega
      subst last
      simp only [List.getElem?_concat_length, Option.some.injEq] at atOrder
      rw [← size, List.getElem?_concat_length, Option.some.injEq] at atNodes
      rw [← walked.arrivals, List.getElem?_concat_length, Option.some.injEq] at atArrivals
      subst atOrder atNodes
      obtain rfl := Option.some.inj (present.symm.trans known)
      exact ⟨_, atArrivals.symm, here⟩

theorem Walked.run (rest : List Nat) (walked : Walked ctx selected started order walk)
    (ran : rest.foldlM (Route.visit ctx selected) walk = some after) :
    Walked ctx selected started (order ++ rest) after := by
  induction rest generalizing order walk with
  | nil =>
      cases Option.some.inj ran
      rwa [List.append_nil]
  | cons taskIndex rest ih =>
      simp only [List.foldlM_cons, bind, Option.bind_eq_some_iff] at ran
      obtain ⟨middle, visited, ran⟩ := ran
      rw [List.append_cons]
      exact ih (walked.visit visited) ran

theorem Walked.start (order : List Nat) :
    Walked ctx selected (Walk.start ctx order).conflicts [] (Walk.start ctx order) := by
  constructor <;> simp [Walk.start, legs]

/-- The leg home changes only clock and distance. -/
structure Returned (ctx : Context) (walk after : Walk) : Prop where
  nodes : after.selectedNodes = walk.selectedNodes
  arrivals : after.arrivals = walk.arrivals
  departures : after.departures = walk.departures
  conflicts : after.conflicts = walk.conflicts
  totalCost : after.totalCost = walk.totalCost
  costUnknown : after.costUnknown = walk.costUnknown
  districts : after.visitedDistricts = walk.visitedDistricts
  distance : after.totalDistance = walk.totalDistance +
    ((homeward ctx walk.selectedNodes).map RouteEdge.distanceMeters).getD 0
  cursor : after.cursor = walk.cursor.add
    (((homeward ctx walk.selectedNodes).map fun edge => secondsDelta edge.durationSeconds).getD 0)

theorem returnToOrigin_returned (returned : returnToOrigin ctx walk = some after)
    (previous : walk.previous = (walk.selectedNodes.getLast?.map CandidateNode.matrixIndex).getD 0) :
    Returned ctx walk after := by
  simp only [returnToOrigin] at returned
  split at returned
  · rename_i going
    simp only [bind, Option.bind_eq_some_iff, pure, Option.some.injEq] at returned
    obtain ⟨edge, found, rfl⟩ := returned
    obtain ⟨node, last⟩ := Option.ne_none_iff_exists'.mp
      (mt List.getLast?_eq_none_iff.mp going.2)
    rw [previous, last] at found
    have home : homeward ctx walk.selectedNodes = some edge := by
      simpa [homeward, going.1, last] using found
    constructor <;> simp [home]
  · rename_i staying
    cases Option.some.inj returned
    have home : homeward ctx walk.selectedNodes = none := by
      simp only [homeward]
      split
      · rename_i going
        simp [not_not.mp fun stops => staying ⟨going, stops⟩]
      · rfl
    constructor <;> simp [home, DateTime.add]

/-- A finished walk without conflicts keeps the constraints on the whole trip. -/
theorem tripHonoured_of_clear {e : RouteEvaluation}
    (walked : Walked ctx selected (Walk.start ctx e.order).conflicts e.order walk)
    (returned : Returned ctx walk after) (nodes : e.selectedNodes = after.selectedNodes)
    (departures : e.departures = after.departures) (distance : e.totalDistance = after.totalDistance)
    (quiet : after.conflicts = []) (clear : tripConflicts ctx after = []) : TripHonoured ctx e := by
  have finish : e.finish ctx = after.cursor := by
    rw [RouteEvaluation.finish, departures, returned.departures, ← walked.cursor, nodes,
      returned.nodes, returned.cursor]
  simp only [tripConflicts, List.flatten_eq_nil_iff, List.forall_mem_cons, List.not_mem_nil,
    false_implies, implies_true, and_true] at clear
  obtain ⟨duration, latestReturn, walking, cost, areas, detour⟩ := clear
  constructor
  · have none : (Walk.start ctx e.order).conflicts = [] :=
      List.prefix_nil.mp (quiet ▸ returned.conflicts ▸ walked.started)
    rw [← relativeOrderSatisfied_iff]
    by_contra broken
    simp only [Walk.start] at none
    split at none
    · contradiction
    · rename_i kept
      refine kept ⟨?_, broken⟩
      intro empty
      simp [relativeOrderSatisfied, empty] at broken
  · intro limit wanted
    simp only [wanted, finish] at duration ⊢
    split at duration
    · contradiction
    · exact not_lt.mp ‹_›
  · intro latest wanted
    simp only [wanted] at latestReturn
    rw [finish]
    split at latestReturn
    · contradiction
    · rename_i late
      simp only [DateTime.sub, not_lt] at late
      linarith
  · intro limit wanted mode
    simp only [wanted, mode, true_and] at walking
    split at walking
    · contradiction
    · exact distance ▸ not_lt.mp ‹_›
  · intro limit wanted
    simp only [wanted] at cost
    split at cost
    · contradiction
    · rename_i known
      split at cost
      · contradiction
      · rename_i within
        obtain ⟨costs, prices, total⟩ :=
          walked.costs (returned.costUnknown ▸ Bool.eq_false_iff.mpr known)
        refine ⟨costs, nodes ▸ returned.nodes ▸ prices, ?_⟩
        rw [total, ← returned.totalCost]
        exact not_lt.mp within
  · intro area wanted
    rw [if_neg (List.ne_nil_of_mem wanted)] at areas
    split at areas
    · contradiction
    · split at areas
      · rename_i missing
        have passed := List.filter_eq_nil_iff.mp missing area wanted
        obtain ⟨district, visited, inside⟩ := List.any_eq_true.mp (by simpa using passed)
        obtain ⟨node, member, same⟩ := walked.districts district (returned.districts ▸ visited)
        exact ⟨node, nodes ▸ returned.nodes ▸ member, district, same, inside⟩
      · contradiction
  · intro limit baseline wanted given
    simp only [wanted, given] at detour
    split at detour
    · contradiction
    · exact distance ▸ not_lt.mp ‹_›

/-- A feasible evaluation follows its selection, keeps the constraints on the whole trip, and has no
conflict at any stop. -/
structure RouteEvaluation.Clear (ctx : Context) (selected : Nat → Option CandidateNode)
    (e : RouteEvaluation) : Prop where
  nodes : e.selectedNodes.map some = e.order.map selected
  arrivals : e.arrivals.length = e.order.length
  distance : ∃ edges, legs ctx.matrix 0 e.selectedNodes = some edges ∧
    e.totalDistance = (edges.map RouteEdge.distanceMeters).sum +
      ((homeward ctx e.selectedNodes).map RouteEdge.distanceMeters).getD 0
  stops : ∀ (k : Nat) taskIndex task node arrived, e.order[k]? = some taskIndex →
    ctx.tasks[taskIndex]? = some task → e.selectedNodes[k]? = some node →
    e.arrivals[k]? = some arrived →
    ∃ cursor, arrived = arrival task cursor ∧ stopConflicts ctx task node cursor = []
  trip : TripHonoured ctx e

theorem feasible_clear {e : RouteEvaluation}
    (evaluated : evaluateJointOrder ctx order selected = some e) (feasible : e.feasible = true) :
    e.order = order ∧ e.Clear ctx selected := by
  simp only [evaluateJointOrder, bind, Option.bind_eq_some_iff, pure, Option.some.injEq] at evaluated
  obtain ⟨walk, ran, after, home, rfl⟩ := evaluated
  have walked : Walked ctx selected (Walk.start ctx order).conflicts order walk :=
    (Walked.start order).run order ran
  have returned := returnToOrigin_returned home walked.previous
  obtain ⟨quiet, clear⟩ := List.append_eq_nil_iff.mp (List.isEmpty_iff.mp feasible)
  refine ⟨rfl, returned.nodes ▸ walked.nodes, returned.arrivals ▸ walked.arrivals, ?_, ?_,
    tripHonoured_of_clear walked returned rfl rfl rfl quiet clear⟩
  · obtain ⟨edges, along, total⟩ := walked.distance
    refine ⟨edges, returned.nodes ▸ along, ?_⟩
    rw [← total, returned.nodes]
    exact returned.distance
  · intro k taskIndex task node arrived atOrder known atNodes atArrivals
    exact walked.stops (returned.conflicts ▸ quiet) k taskIndex task node arrived atOrder known
      (returned.nodes ▸ atNodes) (returned.arrivals ▸ atArrivals)

/-- A museum half an hour away, booked for an hour after departure. -/
def museumTask (earliest : DateTime) : PlanningTask :=
  { description := "museum"
    appointmentTime := some ⟨3600000000, 0⟩
    earliestArrival := some earliest
    deadline := some ⟨9000000000, 0⟩ }

def museumVisit (earliest : DateTime) : Context where
  departure := ⟨0, 0⟩
  tasks := [museumTask earliest]
  matrix := ⟨[[⟨0, 0, 1⟩, ⟨1800, 600, 1⟩], [⟨1800, 600, 1⟩, ⟨0, 0, 1⟩]]⟩
  preferences := {}
  constraints := { latestReturnTime := some ⟨9000000000, 0⟩, mustReturnToOrigin := true }
  mode := .walking

def museumNode : CandidateNode where
  taskIndex := 0
  candidateRank := 0
  matrixIndex := 1
  rating := some 5
  confidence := 1

def museumEvaluation (earliest : DateTime) : Option RouteEvaluation :=
  evaluateJointOrder (museumVisit earliest) [0] fun _ => some museumNode

end MapGo.Route
