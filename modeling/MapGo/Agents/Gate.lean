import MapGo.Agents.Planner

/-! What the deterministic gate says of the planner's plans. A feasible route keeps the deadlines and
limits that the gate checks again. The ids of the places it never looks at, and its clock rounds
durations to microseconds, which the gate adds up as they are. -/
namespace MapGo.Agents

open MapGo.Route
open MapGo.Planning

/-- No finding blocks. -/
def Calm (findings : List RouteEvaluationFinding) : Prop :=
  ∀ finding ∈ findings, finding.severity ≠ .blocking

section
variable {code message : String} {plan : Plan} {stop : PlanStop} {index : Nat}

theorem calm_ite {p : Prop} [Decidable p] :
    Calm (if p then [blocking code message] else []) ↔ ¬ p := by
  split
  · rename_i broken
    simp [Calm, blocking, broken]
  · rename_i kept
    simp [Calm, kept]

theorem calm_append {first second : List RouteEvaluationFinding} :
    Calm (first ++ second) ↔ Calm first ∧ Calm second := List.forall_mem_append

theorem calm_flatten {lists : List (List RouteEvaluationFinding)} :
    Calm lists.flatten ↔ ∀ findings ∈ lists, Calm findings := by
  constructor
  · intro calm findings member finding inside
    exact calm finding (List.mem_flatten_of_mem member inside)
  · intro calm finding inside
    obtain ⟨findings, member, inside⟩ := List.mem_flatten.mp inside
    exact calm findings member finding inside

/-- Times that can be compared, the first not behind the second. -/
def InTime (left right : Option Planning.Stamp) : Prop :=
  ∀ first second, left = some first → right = some second → first.after second = some false

theorem calm_compareTimes {left right : Option Planning.Stamp} {evidence : String} :
    Calm (compareTimes left right (timeEvidenceInvalid evidence) (blocking code message)) ↔
      InTime left right := by
  unfold compareTimes InTime
  cases left with
  | none => simp [Calm]
  | some first =>
      cases right with
      | none => simp [Calm]
      | some second =>
          cases compared : first.after second with
          | none => simp [Calm, timeEvidenceInvalid, blocking, compared]
          | some late => cases late <;> simp [Calm, blocking, compared]

/-- The stop is marked as satisfied and reached by its deadline. -/
def StopInTime (stop : PlanStop) : Prop :=
  stop.constraintSatisfied ≠ some false ∧ InTime stop.arrivalTime stop.task.deadline

theorem calm_stopFindings : Calm (stopFindings index stop) ↔ StopInTime stop := by
  rw [stopFindings, calm_append, calm_ite, calm_compareTimes]
  rfl

theorem calm_stops {stops : List PlanStop} :
    Calm (stops.mapIdx stopFindings).flatten ↔ ∀ stop ∈ stops, StopInTime stop := by
  rw [calm_flatten]
  constructor
  · intro calm stop member
    obtain ⟨k, bound, rfl⟩ := List.mem_iff_getElem.mp member
    exact calm_stopFindings.mp (calm _ (List.mem_mapIdx.mpr ⟨k, bound, rfl⟩))
  · intro inTime findings member
    obtain ⟨k, bound, rfl⟩ := List.mem_mapIdx.mp member
    exact calm_stopFindings.mpr (inTime _ (List.getElem_mem bound))

/-- What the gate wants of a plan besides the ids of its places and its duration. -/
structure KeepsLimits (plan : Plan) : Prop where
  status : plan.status = .success
  visits : plan.stops ≠ []
  stops : ∀ stop ∈ plan.stops, StopInTime stop
  returns : InTime (plan.stops.getLast?.bind PlanStop.departureTime) plan.intent.hard.latestReturnTime
  cost : ∀ limit ∈ plan.intent.hard.maxTotalCostYuan, number plan.estimatedCostYuan ≤ limit
  walking : ∀ limit ∈ plan.intent.hard.maxWalkingMeters, walkingMeters plan ≤ limit

/-- Every place has an id of its own. -/
def DistinctIds (plan : Plan) : Prop := "" ∉ poiIds plan.stops ∧ (poiIds plan.stops).Nodup

def KeepsDuration (plan : Plan) : Prop :=
  ∀ limit ∈ plan.intent.hard.maxTotalDurationMinutes, number plan.totalTravelSeconds ≤ limit * 60

theorem not_any_lt {limit : Option ℚ} {actual : ℚ} :
    ¬ limit.any (· < actual) = true ↔ ∀ bound ∈ limit, actual ≤ bound := by
  cases limit <;> simp

/-- With the policy of the run, the gate finds no hard failure exactly in the plans that keep all. -/
theorem gate_clear_iff (plan : Plan) :
    (evaluateRoutePlan plan (runtimeRoutePolicy plan)).hardFailures = [] ↔
      KeepsLimits plan ∧ DistinctIds plan ∧ KeepsDuration plan := by
  have same : (evaluateRoutePlan plan (runtimeRoutePolicy plan)).hardFailures = [] ↔
      Calm (limitFindings plan (runtimeRoutePolicy plan)) := by
    refine hardFailures_eq_nil.trans (calm_append.trans (and_iff_left ?_))
    split <;> simp [Calm]
  rw [same, limitFindings, calm_flatten]
  simp only [List.forall_mem_cons, calm_ite, calm_stops, calm_compareTimes, not_any_lt]
  have present (named : "" ∉ poiIds plan.stops) :
      (poiIds plan.stops).filter (· ≠ "") = poiIds plan.stops :=
    List.filter_eq_self.mpr fun id member => decide_eq_true fun empty => named (empty ▸ member)
  constructor
  · rintro ⟨status, visits, named, distinct, stops, returns, duration, -, cost, walking, -⟩
    refine ⟨⟨not_not.mp status, visits, stops, returns, cost, walking⟩, ⟨named, ?_⟩, ?_⟩
    · exact present named ▸ not_not.mp distinct
    · exact fun limit wanted => duration _ (Option.mem_map_of_mem _ wanted)
  · rintro ⟨kept, ⟨named, distinct⟩, duration⟩
    refine ⟨not_not.mpr kept.status, kept.visits, named, not_not.mpr ?_, kept.stops, kept.returns,
      ?_, by simp [runtimeRoutePolicy], kept.cost, kept.walking, ?_, by simp⟩
    · exact (present named).symm ▸ distinct
    · intro bound scaled
      obtain ⟨limit, wanted, rfl⟩ := Option.mem_map.mp scaled
      exact duration limit wanted
    · simp [runtimeRoutePolicy, boundedScore, Calm]

end

section
variable {input : PlannerAgentInput} {tools : PlannerTools} {matrix : RouteMatrix} {plan : Plan}
  {nodes : List CandidateNode} {arrivals departures : List DateTime} {stops : List PlanStop}
  {previous : Nat} {ctx : Context} {e : RouteEvaluation}

/-- Every edge that the tools answer has a property. -/
def PlannerTools.Everywhere (tools : PlannerTools) (P : RouteEdge → Prop) : Prop :=
  (∀ points mode, ∀ matrix ∈ tools.routeMatrix points mode, matrix.Everywhere P) ∧
    ∀ points, ∀ edges ∈ tools.transitEdges points, ∀ edge ∈ edges, P edge

/-- The evaluation that a plan of the planner reports. -/
structure Reports (input : PlannerAgentInput) (tools : PlannerTools) (plan : Plan) (ctx : Context)
    (e : RouteEvaluation) : Prop where
  evaluated : ∃ order selected, evaluateJointOrder ctx order selected = some e
  tasks : ctx.tasks = input.intent.tasks
  constraints : ctx.constraints = input.intent.hard
  mode : ctx.mode = input.intent.transportMode
  tour : Tour (input.groups tools) e
  planned : input.plan tools ctx.matrix e = some plan
  edges : ∀ P, tools.Everywhere P → ctx.matrix.Everywhere P

theorem plan_status (planned : input.plan tools matrix e = some plan)
    (success : plan.status = .success) : e.feasible = true := by
  obtain ⟨stops, -, made⟩ := Option.bind_eq_some_iff.mp planned
  obtain rfl := Option.some.inj made
  dsimp only at success
  split at success
  · assumption
  · contradiction

theorem verifyTransit_edges {edges : List RouteEdge}
    (verified : input.verifyTransit tools e = .ok (some edges)) :
    ∃ points, tools.transitEdges points = some edges := by
  unfold PlannerAgentInput.verifyTransit at verified
  split at verified
  · obtain ⟨points, -, checked⟩ := bind_eq_ok.mp verified
    obtain ⟨arguments, -, answered⟩ := bind_eq_ok.mp checked
    exact ⟨arguments.points, Except.ok.inj answered⟩
  · cases verified

/-- A run that answers with a route reports a tour, over the verified edges where there are some. -/
theorem run_reports (complete : tools.solver.Complete) (ran : input.run tools = .ok plan)
    (success : plan.status = .success) : ∃ ctx e, Reports input tools plan ctx e := by
  have asks : input.clarification.status ≠ .success := by simp [PlannerAgentInput.clarification]
  unfold PlannerAgentInput.run at ran
  split at ran
  · exact absurd (Except.ok.inj ran ▸ success) asks
  · obtain ⟨arguments, -, ran⟩ := bind_eq_ok.mp ran
    split at ran
    · exact absurd (Except.ok.inj ran ▸ success) asks
    · rename_i matrix answered
      obtain ⟨-, -, ran⟩ := bind_eq_ok.mp ran
      split at ran
      · exact absurd (Except.ok.inj ran ▸ success) asks
      · rename_i found algorithm joint
        obtain ⟨edges, verified, ran⟩ := bind_eq_ok.mp ran
        obtain ⟨reported, refined, ran⟩ := bind_eq_ok.mp ran
        have tour := joint_tour complete groups_sized groups_owned joint
        have planned : input.plan tools reported.1 reported.2 = some plan := by
          cases made : input.plan tools reported.1 reported.2 with
          | none => simp [made] at ran
          | some other => simpa [made] using ran
        have measured (P : RouteEdge → Prop) (all : tools.Everywhere P) : matrix.Everywhere P :=
          all.1 _ _ matrix answered
        cases edges with
        | none =>
            obtain rfl := Except.ok.inj refined
            obtain ⟨order, selected, baseline, -, judged⟩ := joint_evaluated joint
            exact ⟨_, _, ⟨order, selected, judged⟩, rfl, rfl, rfl, tour, planned, measured⟩
        | some edges =>
            simp only [PlannerAgentInput.refine] at refined
            cases judged : reevaluateSelectedRoute ((input.context matrix).refined found edges)
                found with
            | none => simp [judged] at refined
            | some again =>
                obtain rfl : (_, again) = reported := by simpa [judged] using refined
                refine ⟨_, _, ⟨_, _, judged⟩, rfl, rfl, rfl,
                  tour.reevaluated groups_owned judged, planned, fun P all => ?_⟩
                obtain ⟨points, asked⟩ := verifyTransit_edges verified
                exact refineMatrix_everywhere (measured P all) (all.2 points edges asked)

/-- A stop of a plan with its task, place and edge. -/
structure Stops (input : PlannerAgentInput) (tools : PlannerTools) (node : CandidateNode)
    (arrived left : DateTime) (edge : RouteEdge) (stop : PlanStop) : Prop where
  place : ∃ place, input.placeOf tools node = some place ∧ stop.poi.id = some place.id
  travel : stop.travel.distanceMeters = some edge.distanceMeters ∧ stop.travel.mode = none
  arrival : stop.arrivalTime = some (.aware arrived)
  departure : stop.departureTime = some (.aware left)
  deadline : ∃ task, input.intent.tasks[node.taskIndex]? = some task ∧
    stop.task.deadline = task.deadline.map .aware ∧ stop.constraintSatisfied =
      some (task.deadline.all fun deadline => arrived.instant ≤ deadline.instant)

theorem planStop_stops {node : CandidateNode} {arrived left : DateTime} {stop : PlanStop}
    (planned : input.planStop tools matrix previous node arrived left = some stop) :
    ∃ edge, matrix.edge previous node.matrixIndex = some edge ∧
      Stops input tools node arrived left edge stop := by
  simp only [PlannerAgentInput.planStop, bind, Option.bind_eq_some_iff, pure,
    Option.some.injEq] at planned
  obtain ⟨task, known, place, found, edge, along, rfl⟩ := planned
  exact ⟨edge, along, ⟨place, found, rfl⟩, ⟨rfl, rfl⟩, rfl, rfl, ⟨task, known, rfl, rfl⟩⟩

/-- The stops of a plan follow the route, node by node. -/
inductive StopsAlong (input : PlannerAgentInput) (tools : PlannerTools) : List CandidateNode →
    List DateTime → List DateTime → List RouteEdge → List PlanStop → Prop where
  | nil (arrivals departures : List DateTime) : StopsAlong input tools [] arrivals departures [] []
  | cons {node : CandidateNode} {nodes : List CandidateNode} {arrived left : DateTime}
      {arrivals departures : List DateTime} {edge : RouteEdge} {edges : List RouteEdge}
      {stop : PlanStop} {stops : List PlanStop}
      (here : Stops input tools node arrived left edge stop)
      (rest : StopsAlong input tools nodes arrivals departures edges stops) :
      StopsAlong input tools (node :: nodes) (arrived :: arrivals) (left :: departures)
        (edge :: edges) (stop :: stops)

theorem planStops_along
    (planned : input.planStops tools matrix previous nodes arrivals departures = some stops) :
    ∃ edges, legs matrix previous nodes = some edges ∧
      StopsAlong input tools nodes arrivals departures edges stops := by
  induction nodes generalizing previous arrivals departures stops with
  | nil =>
      obtain rfl := Option.some.inj planned
      exact ⟨[], rfl, .nil _ _⟩
  | cons node nodes ih =>
      cases arrivals with
      | nil => contradiction
      | cons arrived arrivals =>
          cases departures with
          | nil => contradiction
          | cons left departures =>
              obtain ⟨stop, first, more⟩ := Option.bind_eq_some_iff.mp planned
              obtain ⟨others, later, same⟩ := Option.bind_eq_some_iff.mp more
              obtain rfl := Option.some.inj same
              obtain ⟨edge, travelled, here⟩ := planStop_stops first
              obtain ⟨edges, along, rest⟩ := ih later
              refine ⟨edge :: edges, ?_, .cons here rest⟩
              simp only [legs, travelled, along, Option.bind_some, Option.map_some]

variable {edges : List RouteEdge}

theorem StopsAlong.length (along : StopsAlong input tools nodes arrivals departures edges stops) :
    stops.length = nodes.length := by
  induction along with
  | nil => rfl
  | cons here rest ih => exact congrArg (· + 1) ih

/-- The legs of the plan are those of the route. -/
theorem StopsAlong.distances
    (along : StopsAlong input tools nodes arrivals departures edges stops) :
    (stops.map fun stop => number stop.travel.distanceMeters) = edges.map RouteEdge.distanceMeters ∧
      ∀ stop ∈ stops, stop.travel.mode = none := by
  induction along with
  | nil => simp
  | cons here rest ih =>
      rw [List.map_cons, List.map_cons, ih.1, here.travel.1]
      exact ⟨rfl, List.forall_mem_cons.mpr ⟨here.travel.2, ih.2⟩⟩

/-- The last stop is left at the last departure. -/
theorem StopsAlong.left (along : StopsAlong input tools nodes arrivals departures edges stops)
    (size : departures.length = nodes.length) :
    stops.getLast?.bind PlanStop.departureTime = departures.getLast?.map .aware := by
  induction along with
  | nil arrivals departures =>
      rw [List.eq_nil_of_length_eq_zero size]
      rfl
  | @cons node nodes arrived left arrivals departures edge edges stop stops here rest ih =>
      have onward := ih (Nat.succ.inj size)
      rw [List.getLast?_cons, List.getLast?_cons]
      cases stops with
      | nil =>
          rw [List.eq_nil_of_length_eq_zero ((Nat.succ.inj size).trans rest.length.symm)]
          exact here.departure
      | cons second others =>
          cases departures with
          | nil => simp [← rest.length] at size
          | cons next later =>
              rw [List.getLast?_cons, List.getLast?_cons] at onward ⊢
              exact onward

/-- Each stop of the plan is one of the route. -/
theorem StopsAlong.stop {stop : PlanStop}
    (along : StopsAlong input tools nodes arrivals departures edges stops) (member : stop ∈ stops) :
    ∃ (k : Nat) (node : CandidateNode) (arrived left : DateTime) (edge : RouteEdge),
      nodes[k]? = some node ∧ arrivals[k]? = some arrived ∧
        Stops input tools node arrived left edge stop := by
  induction along with
  | nil => contradiction
  | cons here rest ih =>
      obtain rfl | later := List.mem_cons.mp member
      · exact ⟨0, _, _, _, _, rfl, rfl, here⟩
      · obtain ⟨k, node, arrived, left, edge, there, reached, made⟩ := ih later
        exact ⟨k + 1, node, arrived, left, edge, there, reached, made⟩

/-- What a plan of the planner consists of. -/
theorem Reports.stops_along (report : Reports input tools plan ctx e) :
    ∃ edges home, legs ctx.matrix 0 e.selectedNodes = some edges ∧
      homeward ctx e.selectedNodes = home ∧
      Timed ctx.departure edges e.arrivals e.departures ∧
      e.totalDistance = (edges.map RouteEdge.distanceMeters).sum +
        (home.map RouteEdge.distanceMeters).getD 0 ∧
      e.totalTravelSeconds = (edges.map RouteEdge.durationSeconds).sum +
        (home.map RouteEdge.durationSeconds).getD 0 ∧
      StopsAlong input tools e.selectedNodes e.arrivals e.departures edges plan.stops := by
  obtain ⟨order, selected, judged⟩ := report.evaluated
  obtain ⟨nodes, edges, home, follows⟩ := evaluate_follows judged
  obtain rfl : nodes = e.selectedNodes :=
    List.map_injective_iff.mpr (Option.some_injective _)
      (follows.chosen.trans (evaluateJointOrder_nodes judged).2.symm)
  obtain ⟨stops, planned, made⟩ := Option.bind_eq_some_iff.mp report.planned
  obtain rfl := Option.some.inj made
  obtain ⟨others, same, along⟩ := planStops_along planned
  obtain rfl := Option.some.inj (follows.along.symm.trans same)
  exact ⟨edges, home, follows.along, follows.returns.eq_homeward, follows.timed, follows.distance,
    follows.seconds, along⟩

theorem Reports.fields (report : Reports input tools plan ctx e) :
    plan.intent = input.planIntent ∧ plan.estimatedCostYuan = none ∧
      plan.totalTravelSeconds = some e.totalTravelSeconds ∧
      (e.feasible = true → plan.status = .success) := by
  obtain ⟨stops, -, made⟩ := Option.bind_eq_some_iff.mp report.planned
  obtain rfl := Option.some.inj made
  exact ⟨rfl, rfl, rfl, fun feasible => if_pos feasible⟩

/-- The way home takes no negative time. -/
theorem Reports.home_nonneg (report : Reports input tools plan ctx e) {home : RouteEdge}
    (returns : homeward ctx e.selectedNodes = some home) : Measured home := by
  have measured := report.edges Measured ⟨tools.matrix_measured, tools.transit_measured⟩
  unfold homeward at returns
  split at returns
  · obtain ⟨node, -, found⟩ := Option.bind_eq_some_iff.mp returns
    exact measured.edge found
  · contradiction

theorem buffer_nonneg (ctx : Context) : 0 ≤ ctx.buffer := by
  simp only [Context.buffer, minutesDelta]
  positivity

/-- A feasible route keeps the deadlines and the limits of the gate. -/
theorem Reports.limits (report : Reports input tools plan ctx e) (feasible : e.feasible = true) :
    KeepsLimits plan := by
  obtain ⟨intent, cost, -, status⟩ := report.fields
  obtain ⟨edges, home, along, returns, timed, distance, -, stops⟩ := report.stops_along
  obtain ⟨order, selected, judged⟩ := report.evaluated
  obtain ⟨rfl, clear⟩ := feasible_clear judged feasible
  have buffer := buffer_nonneg ctx
  have homeTime : 0 ≤ (home.map fun edge => secondsDelta edge.durationSeconds).getD 0 := by
    cases home with
    | none => exact le_rfl
    | some edge =>
        have nonneg := (report.home_nonneg returns).1
        exact roundHalfEven_nonneg (by positivity)
  have homeWay : 0 ≤ (home.map RouteEdge.distanceMeters).getD 0 := by
    cases home with
    | none => exact le_rfl
    | some edge => exact (report.home_nonneg returns).2
  constructor
  · exact status feasible
  · rw [ne_eq, ← List.length_eq_zero_iff, stops.length, tour_length report.tour]
    exact List.length_pos_of_ne_nil input.intent.tasks_ne |>.ne'
  · intro stop member
    obtain ⟨k, node, arrived, left, edge, there, reached, made⟩ := stops.stop member
    obtain ⟨task, known, due, marked⟩ := made.deadline
    have place : e.order[k]? = some node.taskIndex := by
      rw [report.tour.order_eq groups_owned, List.getElem?_map, there]
      rfl
    obtain ⟨cursor, rfl, none⟩ :=
      clear.stops k node.taskIndex task node arrived place (report.tasks ▸ known) there reached
    have inTime (deadline : DateTime) (given : task.deadline = some deadline) :
        (arrival task cursor).instant ≤ deadline.instant := by
      have kept := (stopConflicts_eq_nil_iff.mp none).2.deadline deadline given
      linarith
    rw [StopInTime, marked, made.arrival, due]
    cases given : task.deadline with
    | none => exact ⟨by simp, by simp [InTime]⟩
    | some deadline =>
        have kept := inTime deadline given
        refine ⟨by simp [kept], ?_⟩
        intro first second same other
        obtain rfl := Option.some.inj same
        obtain rfl := Option.some.inj other
        simpa [Planning.Stamp.after] using kept
  · rw [stops.left (timed.lengths.2.trans (legs_length along)), intent]
    intro first second last latest
    obtain ⟨departure, final, rfl⟩ := Option.map_eq_some_iff.mp last
    obtain ⟨limit, wanted, rfl⟩ := Option.map_eq_some_iff.mp latest
    have kept := clear.trip.latestReturn limit (report.constraints ▸ wanted)
    rw [RouteEvaluation.finish, final, returns] at kept
    simp only [Option.getD_some, DateTime.add] at kept
    simp only [Planning.Stamp.after, Option.some.injEq, decide_eq_false_iff_not, not_lt]
    linarith
  · intro limit wanted
    rw [cost]
    exact input.intent.cost_nonneg limit (by simpa [intent, PlannerAgentInput.planIntent] using wanted)
  · intro limit wanted
    have given : input.intent.hard.maxWalkingMeters = some limit := by
      simpa [intent, PlannerAgentInput.planIntent] using wanted
    obtain ⟨metres, modes⟩ := stops.distances
    unfold walkingMeters
    by_cases walking : input.intent.transportMode = .walking
    · have all : plan.stops.filter (fun stop => plan.intent.transportMode = .walking ∨
          stop.travel.mode = some .walking) = plan.stops := by
        refine List.filter_eq_self.mpr fun stop _ => ?_
        simp [intent, PlannerAgentInput.planIntent, walking]
      have kept := clear.trip.walking limit (report.constraints ▸ given) (report.mode.trans walking)
      rw [all, metres]
      linarith
    · have nothing : plan.stops.filter (fun stop => plan.intent.transportMode = .walking ∨
          stop.travel.mode = some .walking) = [] := by
        refine List.filter_eq_nil_iff.mpr fun stop member => ?_
        simp [intent, PlannerAgentInput.planIntent, walking, modes stop member]
      rw [nothing]
      exact input.intent.walking_nonneg limit given

/-- The clock takes the duration of the edge without rounding it. -/
def WholeEdge (edge : RouteEdge) : Prop :=
  (secondsDelta edge.durationSeconds : ℚ) = edge.durationSeconds * 1000000

theorem sum_whole (whole : ∀ edge ∈ edges, WholeEdge edge) :
    (((edges.map fun edge => secondsDelta edge.durationSeconds).sum : Int) : ℚ) =
      (edges.map RouteEdge.durationSeconds).sum * 1000000 := by
  induction edges with
  | nil => simp
  | cons edge rest ih =>
      obtain ⟨here, later⟩ := List.forall_mem_cons.mp whole
      rw [List.map_cons, List.sum_cons, List.map_cons, List.sum_cons, Int.cast_add, ih later, here,
        add_mul]

theorem legs_edges {P : RouteEdge → Prop} (all : matrix.Everywhere P)
    (along : legs matrix previous nodes = some edges) : ∀ edge ∈ edges, P edge := by
  induction nodes generalizing previous edges with
  | nil =>
      obtain rfl := Option.some.inj along
      simp
  | cons node rest ih =>
      obtain ⟨edge, found, onward⟩ := Option.bind_eq_some_iff.mp along
      obtain ⟨others, beyond, rfl⟩ := Option.map_eq_some_iff.mp onward
      exact List.forall_mem_cons.mpr ⟨all.edge found, ih beyond⟩

/-- Where the clock does not round, a feasible route keeps the duration as the gate adds it up. -/
theorem Reports.duration (report : Reports input tools plan ctx e) (feasible : e.feasible = true)
    (whole : tools.Everywhere WholeEdge) : KeepsDuration plan := by
  obtain ⟨intent, -, total, -⟩ := report.fields
  obtain ⟨edges, home, along, returns, timed, -, seconds, -⟩ := report.stops_along
  obtain ⟨order, selected, judged⟩ := report.evaluated
  obtain ⟨rfl, clear⟩ := feasible_clear judged feasible
  have matrix := report.edges WholeEdge whole
  have stops := sum_whole (legs_edges matrix along)
  have homeWhole : (((home.map fun edge => secondsDelta edge.durationSeconds).getD 0 : Int) : ℚ) =
      (home.map RouteEdge.durationSeconds).getD 0 * 1000000 := by
    cases home with
    | none => simp
    | some edge =>
        unfold homeward at returns
        split at returns
        · obtain ⟨node, -, found⟩ := Option.bind_eq_some_iff.mp returns
          exact matrix.edge found
        · contradiction
  intro bound wanted
  rw [intent] at wanted
  obtain ⟨limit, given, rfl⟩ := Option.map_eq_some_iff.mp wanted
  have kept := clear.trip.duration limit (report.constraints ▸ given)
  have spent := timed.travel_le
  rw [RouteEvaluation.finish, returns] at kept
  simp only [DateTime.secondsSince, DateTime.add] at kept
  rw [total, number, Option.getD_some, seconds]
  generalize (e.departures.getLast?.getD ctx.departure).instant = last at kept spent
  rw [div_div, div_le_iff₀ (by norm_num)] at kept
  push_cast at kept
  have lower : ((ctx.departure.instant : ℚ) +
      ((edges.map fun edge => secondsDelta edge.durationSeconds).sum : Int)) ≤ (last : ℚ) := by
    exact_mod_cast spent
  rw [stops] at lower
  rw [homeWhole] at kept
  linarith

/-- The places that are compared have ids, and no two tasks share one. -/
structure DistinctPlaces (input : PlannerAgentInput) (tools : PlannerTools) : Prop where
  named : ∀ group ∈ input.candidates tools, ∀ place ∈ group, place.id ≠ ""
  apart : ∀ (i j : Nat) first second, (input.candidates tools)[i]? = some first →
    (input.candidates tools)[j]? = some second → i ≠ j →
    ∀ place ∈ first, ∀ other ∈ second, place.id ≠ other.id

theorem StopsAlong.ids (along : StopsAlong input tools nodes arrivals departures edges stops) :
    poiIds stops = nodes.map fun node => ((input.placeOf tools node).map FoundPlace.id).getD "" := by
  induction along with
  | nil => rfl
  | cons here rest ih =>
      obtain ⟨place, found, named⟩ := here.place
      rw [poiIds, List.map_cons, List.map_cons, found, named]
      exact congrArg _ ih

/-- With places of their own, the stops have ids of their own. -/
theorem Reports.ids (report : Reports input tools plan ctx e) (distinct : DistinctPlaces input tools) :
    DistinctIds plan := by
  obtain ⟨edges, home, -, -, -, -, -, stops⟩ := report.stops_along
  have tasks : (e.selectedNodes.map CandidateNode.taskIndex).Nodup :=
    report.tour.order_eq groups_owned ▸ report.tour.1.nodup_iff.mpr List.nodup_range
  have found (node : CandidateNode) (member : node ∈ e.selectedNodes) : ∃ group place,
      (input.candidates tools)[node.taskIndex]? = some group ∧ place ∈ group ∧
        input.placeOf tools node = some place := by
    obtain ⟨place, found⟩ := placeOf_isSome report.tour member
    obtain ⟨group, placed, ranked⟩ := Option.bind_eq_some_iff.mp found
    exact ⟨group, place, placed, List.mem_of_getElem? ranked, found⟩
  rw [DistinctIds, stops.ids]
  constructor
  · intro missing
    obtain ⟨node, member, empty⟩ := List.mem_map.mp missing
    obtain ⟨group, place, placed, inside, same⟩ := found node member
    rw [same] at empty
    exact distinct.named group (List.mem_of_getElem? placed) place inside empty
  · refine List.Nodup.map_on (fun node member other there same => ?_) tasks.of_map
    obtain ⟨group, place, placed, inside, named⟩ := found node member
    obtain ⟨rest, second, beside, within, called⟩ := found other there
    rw [named, called] at same
    by_contra apart
    refine distinct.apart _ _ group rest placed beside (fun index => apart ?_) place inside second
      within same
    exact List.inj_on_of_nodup_map tasks member there index

/-- A successful plan passes the gate exactly with distinct ids and its durations within the limit;
it does so wherever the candidates of the tasks are distinct places, and the clock does not round
where there is a limit. -/
theorem success_passes_gate (input : PlannerAgentInput) (tools : PlannerTools)
    (complete : tools.solver.Complete) :
    (∀ plan, input.run tools = .ok plan → plan.status = .success →
      ((evaluateRoutePlan plan (runtimeRoutePolicy plan)).hardFailures = [] ↔
        DistinctIds plan ∧ KeepsDuration plan)) ∧
    (DistinctPlaces input tools →
      (input.intent.hard.maxTotalDurationMinutes = none ∨ tools.Everywhere WholeEdge) →
      ∀ plan, input.run tools = .ok plan → plan.status = .success →
        (evaluateRoutePlan plan (runtimeRoutePolicy plan)).hardFailures = []) := by
  constructor
  · intro plan ran success
    obtain ⟨ctx, e, report⟩ := run_reports complete ran success
    have limits := report.limits (plan_status report.planned success)
    exact (gate_clear_iff plan).trans (and_iff_right limits)
  · intro distinct whole plan ran success
    obtain ⟨ctx, e, report⟩ := run_reports complete ran success
    have feasible := plan_status report.planned success
    refine (gate_clear_iff plan).mpr ⟨report.limits feasible, report.ids distinct, ?_⟩
    obtain unlimited | whole := whole
    · intro limit wanted
      rw [report.fields.1] at wanted
      simp [PlannerAgentInput.planIntent, unlimited] at wanted
    · exact report.duration feasible whole

theorem eq_ok_of_toOption {ε α : Type} {answer : Except ε α} {a : α}
    (answered : answer.toOption = some a) : answer = .ok a := by
  cases answer with
  | error raised => contradiction
  | ok other => exact congrArg _ (Option.some.inj answered)

theorem museum_distinct :
    DistinctPlaces (museumPlanner (museumIntent none (by simp))) evenTools := by
  have only : (museumPlanner (museumIntent none (by simp))).candidates evenTools =
      [[museumPlace]] := by decide +kernel
  constructor
  · rw [only]
    decide
  · rw [only]
    intro i j first second left right apart
    have bound := (List.getElem?_eq_some_iff.mp left).1
    have other := (List.getElem?_eq_some_iff.mp right).1
    simp only [List.length_singleton] at bound other
    omega

theorem success_passes_gate_museum : ∃ plan,
    (museumPlanner (museumIntent none (by simp))).run evenTools = .ok plan ∧
      plan.status = .success ∧
      (evaluateRoutePlan plan (runtimeRoutePolicy plan)).hardFailures = [] := by
  have answered : ((museumPlanner (museumIntent none (by simp))).run evenTools).toOption.any
      (fun plan => plan.status = .success) = true := by decide +kernel
  obtain ⟨plan, ran, success⟩ := (Option.any_eq_true ..).mp answered
  have ok := eq_ok_of_toOption ran
  have status := of_decide_eq_true success
  exact ⟨plan, ok, status, (success_passes_gate _ evenTools unsolved_complete).2 museum_distinct
    (.inl rfl) plan ok status⟩

theorem museumTasks_two_ne : museumTasks 2 none ≠ [] := by decide

theorem museumTasks_two_bound : (museumTasks 2 none).length ≤ maxPlanningTasks := by decide

theorem museumTasks_two_fit : ∀ task ∈ museumTasks 2 none, TaskFits task :=
  museumTasks_fit unnamed_fits

/-- Two tasks for which the same museum was found. -/
def twoMuseums : ValidIntent where
  tasks := museumTasks 2 none
  discovery := noWishes
  tasks_ne := museumTasks_two_ne
  tasks_bound := museumTasks_two_bound
  tasks_fit := museumTasks_two_fit
  walking_nonneg := unlimited_nonneg
  cost_nonneg := unlimited_nonneg

theorem success_fails_gate : ∃ plan, (museumPlanner twoMuseums).run evenTools = .ok plan ∧
    plan.status = .success ∧
    (evaluateRoutePlan plan (runtimeRoutePolicy plan)).hardFailures = ["duplicate_poi"] := by
  have answered : ((museumPlanner twoMuseums).run evenTools).toOption.any (fun plan =>
      plan.status = .success ∧ (evaluateRoutePlan plan (runtimeRoutePolicy plan)).hardFailures =
        ["duplicate_poi"]) = true := by decide +kernel
  obtain ⟨plan, ran, failed⟩ := (Option.any_eq_true ..).mp answered
  exact ⟨plan, eq_ok_of_toOption ran, of_decide_eq_true failed⟩

end

end MapGo.Agents
