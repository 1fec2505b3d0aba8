import MapGo.Route.Simulation

/-! The timeline of an evaluation. Stop by stop it has an edge, an arrival and a departure, and
the totals are sums over the edges and the way home. -/
namespace MapGo.Route

/-- Each stop is reached no earlier than its edge takes and left no earlier than it is reached. -/
inductive Timed : DateTime → List RouteEdge → List DateTime → List DateTime → Prop where
  | nil (before : DateTime) : Timed before [] [] []
  | cons {before arrived left : DateTime} {edge : RouteEdge} {edges : List RouteEdge}
      {arrivals departures : List DateTime}
      (travels : before.instant + secondsDelta edge.durationSeconds ≤ arrived.instant)
      (stays : arrived.instant ≤ left.instant) (rest : Timed left edges arrivals departures) :
      Timed before (edge :: edges) (arrived :: arrivals) (left :: departures)

variable {ctx : Context} {selected : Nat → Option CandidateNode} {walk after : Walk}
  {order : List Nat} {edges : List RouteEdge} {nodes : List CandidateNode} {e : RouteEvaluation}
  {matrix : RouteMatrix} {previous : Nat} {arrivals departures : List DateTime} {before : DateTime}

theorem Timed.lengths (timed : Timed before edges arrivals departures) :
    arrivals.length = edges.length ∧ departures.length = edges.length := by
  induction timed with
  | nil => exact ⟨rfl, rfl⟩
  | cons travels stays rest ih => exact ⟨congrArg (· + 1) ih.1, congrArg (· + 1) ih.2⟩

/-- The last stop is left no earlier than all its edges take. -/
theorem Timed.travel_le (timed : Timed before edges arrivals departures) :
    before.instant + (edges.map fun edge => secondsDelta edge.durationSeconds).sum ≤
      (departures.getLast?.getD before).instant := by
  induction timed with
  | nil => simp
  | @cons before arrived left edge edges arrivals departures travels stays rest ih =>
      have last : (left :: departures).getLast?.getD before = departures.getLast?.getD left := by
        rw [List.getLast?_cons]
        rfl
      rw [last, List.map_cons, List.sum_cons, ← add_assoc]
      exact (add_le_add_left (travels.trans stays) _).trans ih

theorem legs_length (along : legs matrix previous nodes = some edges) :
    edges.length = nodes.length := by
  induction nodes generalizing previous edges with
  | nil =>
      cases Option.some.inj along
      rfl
  | cons node rest ih =>
      obtain ⟨edge, -, onward⟩ := Option.bind_eq_some_iff.mp along
      obtain ⟨others, later, rfl⟩ := Option.map_eq_some_iff.mp onward
      exact congrArg (· + 1) (ih later)

/-- Where the points of the matrix are the positions, the edges join neighbours. -/
theorem legs_positions {points : List Nat} (along : legs matrix previous nodes = some edges)
    (placed : nodes.map CandidateNode.matrixIndex = points)
    (counted : points = List.range' (previous + 1) points.length) :
    ∀ k < nodes.length, matrix.edge (previous + k) (previous + k + 1) = edges[k]? := by
  induction nodes generalizing previous edges points with
  | nil =>
      intro k inside
      contradiction
  | cons node rest ih =>
      obtain ⟨edge, found, onward⟩ := Option.bind_eq_some_iff.mp along
      obtain ⟨others, beyond, rfl⟩ := Option.map_eq_some_iff.mp onward
      subst placed
      rw [List.map_cons, List.length_cons, List.range'_succ] at counted
      obtain ⟨here, later⟩ := List.cons.inj counted
      intro k inside
      rw [here] at found beyond
      cases k with
      | zero => exact found
      | succ k =>
          have step := ih beyond rfl later k (Nat.lt_of_succ_lt_succ inside)
          rw [List.getElem?_cons_succ, ← step]
          congr 1 <;> omega

theorem le_arrival (task : PlanningTask) (cursor : DateTime) :
    cursor.instant ≤ (arrival task cursor).instant := by
  have waits (openings : List Instant) (t : Instant) : t ≤ openings.foldl max t := by
    induction openings generalizing t with
    | nil => exact le_rfl
    | cons opening rest ih => exact (le_max_left t opening).trans (ih _)
  rw [arrival_instant]
  exact waits _ _

/-- What a walk along an order adds to the lists and totals it starts with. -/
structure Walk.Continues (ctx : Context) (selected : Nat → Option CandidateNode)
    (order : List Nat) (walk after : Walk) (nodes : List CandidateNode) (edges : List RouteEdge)
    (arrivals departures : List DateTime) : Prop where
  chosen : nodes.map some = order.map selected
  along : legs ctx.matrix walk.previous nodes = some edges
  timed : Timed walk.cursor edges arrivals departures
  selectedNodes : after.selectedNodes = walk.selectedNodes ++ nodes
  arrivals : after.arrivals = walk.arrivals ++ arrivals
  departures : after.departures = walk.departures ++ departures
  distance : after.totalDistance = walk.totalDistance + (edges.map RouteEdge.distanceMeters).sum
  seconds : after.totalSeconds = walk.totalSeconds + (edges.map RouteEdge.durationSeconds).sum
  previous : after.previous = (nodes.getLast?.map CandidateNode.matrixIndex).getD walk.previous

theorem visits_continue (ran : order.foldlM (visit ctx selected) walk = some after) :
    ∃ nodes edges arrivals departures,
      Walk.Continues ctx selected order walk after nodes edges arrivals departures := by
  induction order generalizing walk with
  | nil =>
      obtain rfl := Option.some.inj ran
      refine ⟨[], [], [], [], ?_⟩
      constructor <;> simp [legs, Timed.nil]
  | cons taskIndex rest ih =>
      rw [List.foldlM_cons] at ran
      obtain ⟨middle, visited, ran⟩ := Option.bind_eq_some_iff.mp ran
      obtain ⟨node, edge, task, chosen, travelled, -, rfl⟩ := visit_eq_some_iff.mp visited
      obtain ⟨nodes, edges, arrivals, departures, onward⟩ := ih ran
      let reached := walk.cursor.add (secondsDelta edge.durationSeconds)
      let left := (arrival task reached).add (minutesDelta
        (max task.serviceDurationMinutes (task.minServiceDurationMinutes.getD 0)))
      refine ⟨node :: nodes, edge :: edges, arrival task reached :: arrivals, left :: departures, ?_⟩
      constructor
      · rw [List.map_cons, List.map_cons, chosen, onward.chosen]
      · have rest : legs ctx.matrix node.matrixIndex nodes = some edges := onward.along
        rw [legs, travelled, Option.bind_some, rest]
        rfl
      · apply Timed.cons
        · exact le_arrival task reached
        · exact le_add_of_nonneg_right (by simp only [minutesDelta]; positivity)
        · exact onward.timed
      · rw [onward.selectedNodes, Walk.passed, List.append_assoc]
        rfl
      · rw [onward.arrivals, Walk.passed, List.append_assoc]
        rfl
      · rw [onward.departures, Walk.passed, List.append_assoc]
        rfl
      · rw [onward.distance, Walk.passed, List.map_cons, List.sum_cons, add_assoc]
      · rw [onward.seconds, Walk.passed, List.map_cons, List.sum_cons, add_assoc]
      · rw [onward.previous, List.getLast?_cons]
        cases nodes.getLast? <;> rfl

/-- The leg home from the last candidate, where the trip has one. -/
structure Homeward (ctx : Context) (nodes : List CandidateNode) (home : Option RouteEdge) :
    Prop where
  travels : ctx.constraints.mustReturnToOrigin = true → ∀ node, nodes.getLast? = some node →
    ∃ edge, ctx.matrix.edge node.matrixIndex 0 = some edge ∧ home = some edge
  stays : ctx.constraints.mustReturnToOrigin = false ∨ nodes = [] → home = none

/-- What an evaluation reports along its order. -/
structure RouteEvaluation.Follows (ctx : Context) (selected : Nat → Option CandidateNode)
    (order : List Nat) (e : RouteEvaluation) (nodes : List CandidateNode) (edges : List RouteEdge)
    (home : Option RouteEdge) : Prop where
  chosen : nodes.map some = order.map selected
  along : legs ctx.matrix 0 nodes = some edges
  timed : Timed ctx.departure edges e.arrivals e.departures
  returns : Homeward ctx nodes home
  distance : e.totalDistance = (edges.map RouteEdge.distanceMeters).sum +
    (home.map RouteEdge.distanceMeters).getD 0
  seconds : e.totalTravelSeconds = (edges.map RouteEdge.durationSeconds).sum +
    (home.map RouteEdge.durationSeconds).getD 0

theorem evaluate_follows (evaluated : evaluateJointOrder ctx order selected = some e) :
    ∃ nodes edges home, e.Follows ctx selected order nodes edges home := by
  obtain ⟨walk, after, ran, returned, rfl⟩ := evaluateJointOrder_eq_some_iff.mp evaluated
  obtain ⟨nodes, edges, arrivals, departures, along⟩ := visits_continue ran
  have stops : walk.selectedNodes = nodes := along.selectedNodes
  have arrived : walk.arrivals = arrivals := along.arrivals
  have left : walk.departures = departures := along.departures
  have metres : walk.totalDistance = (edges.map RouteEdge.distanceMeters).sum :=
    along.distance.trans (zero_add _)
  have seconds : walk.totalSeconds = (edges.map RouteEdge.durationSeconds).sum :=
    along.seconds.trans (zero_add _)
  subst arrived left
  rcases returnToOrigin_eq_some_iff.mp returned with ⟨⟨wanted, travels⟩, edge, found, rfl⟩ |
    ⟨stays, rfl⟩
  · refine ⟨nodes, edges, some edge, along.chosen, along.along, along.timed, ⟨?_, ?_⟩, ?_, ?_⟩
    · intro _ node last
      rw [along.previous, last] at found
      exact ⟨edge, found, rfl⟩
    · rintro (unwanted | empty)
      · rw [wanted] at unwanted
        contradiction
      · exact absurd (stops.trans empty) travels
    · exact congrArg (· + edge.distanceMeters) metres
    · exact congrArg (· + edge.durationSeconds) seconds
  · refine ⟨nodes, edges, none, along.chosen, along.along, along.timed, ⟨?_, fun _ => rfl⟩, ?_, ?_⟩
    · intro wanted node last
      apply absurd _ stays
      refine ⟨wanted, fun empty => ?_⟩
      rw [← stops, empty] at last
      contradiction
    · exact metres.trans (add_zero _).symm
    · exact seconds.trans (add_zero _).symm

end MapGo.Route
