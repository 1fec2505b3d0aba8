import MapGo.Patch.Labels
import MapGo.Patch.Obligations
import MapGo.Patch.Representable
import MapGo.Patch.WellFormed
import MapGo.Route.Search
import MapGo.Route.Timetable

/-! What the patch validator says of the plans that a replan proposes. The proposer judges the
remaining tasks alone, the validator the whole intent; over the same ways both compute one
timeline, and the intent's constraints on that timeline decide. -/
namespace MapGo.Patch

open MapGo.Route

/-- Between two points there is one way for each mode, whatever else the matrix is asked for. -/
def wayMatrix (way : TransportMode → Coordinate → Coordinate → RouteEdge) (mode : TransportMode)
    (points : List Coordinate) : RouteMatrix :=
  ⟨points.map fun origin => points.map fun destination => way mode origin destination⟩

def MapProvider.Ways (provider : MapProvider)
    (way : TransportMode → Coordinate → Coordinate → RouteEdge) : Prop :=
  ∀ points mode, provider.routeMatrix points mode = some (wayMatrix way mode points)

/-- The stops carry the tasks of the intent. -/
def Snapshot.CarriesTasks (snapshot : Snapshot) : Prop :=
  ∀ stop ∈ snapshot.stops, snapshot.intent.tasks[stop.taskIndex.toNat]? = some stop.task

/-- Obligations decide whether stops carry their tasks. -/
theorem Snapshot.CarriesTasks.of_obligations {before after : Snapshot}
    (carries : before.CarriesTasks) (intent : after.intent.tasks = before.intent.tasks)
    (obligations : ∀ stop ∈ after.stops, stop.obligation ∈ before.stops.map Stop.obligation) :
    after.CarriesTasks := by
  intro stop member
  obtain ⟨source, inside, same⟩ := List.mem_map.mp (obligations stop member)
  obtain ⟨index, task⟩ := Prod.mk.inj same
  rw [intent, ← index, ← task]
  exact carries source inside

/-- Patches keep the tasks that the planner wrote into the stops. -/
theorem carriesTasks_kept : Kept Snapshot.CarriesTasks := by
  intro provider base patch snapshot validated carries
  unfold validatePatch at validated
  split at validated
  · contradiction
  · rename_i patched stops applied
    obtain ⟨_, _, _, _, _, -, -, -, covers, -, rewritten, rfl, -, -, -, intent⟩ :=
      accepted_eq validated
    have kept := written_retimed covers rewritten
    have obligations := (foldlM_obligations (applyPatchStructure_ok_iff.mp applied).1).1
    have tasks : patched.intent.tasks = base.intent.tasks :=
      applyPatchStructure_attribute (f := fun snapshot => snapshot.intent.tasks)
        (fun _ _ => rfl) (fun _ _ => rfl) applied
    have same : snapshot.stops.map Stop.obligation = stops.map Stop.obligation :=
      retimed_map kept fun stop timed retimed => by rw [retimed]; rfl
    refine carries.of_obligations ?_ fun stop member => ?_
    · rw [intent]
      exact tasks
    · have owed := List.mem_map_of_mem (f := Stop.obligation) member
      rw [same] at owed
      exact obligations.subset (List.mem_append_left _ owed)

theorem carriesTasks_of_reaches {start s : PlanRun} (path : planRunMachine.Reaches start s)
    (planned : start.Holds Snapshot.CarriesTasks) :
    ∀ version ∈ s.versions, version.snapshot.CarriesTasks :=
  (planned.of_reaches carriesTasks_kept path).versions

/-- The patch can be accepted: it applies, and the validator reports no conflict. -/
def Acceptable (provider : MapProvider) (snapshot : Snapshot) (operations : List Operation)
    (impact : Impact) : Prop :=
  ∃ patched stops updated, applyPatchStructure snapshot operations = .ok (patched, stops) ∧
    recalculateAndValidateSnapshot provider patched stops impact.replanContext = .ok (updated, [])

/-- The end of the proposed timeline, with the way home where the intent asks for it. -/
def proposedFinish (ctx : Context) (stops : List Stop) (e : RouteEvaluation) : DateTime :=
  (e.departures.getLast?.getD ctx.departure).add
    (((homeward ctx (positioned stops)).map fun edge => secondsDelta edge.durationSeconds).getD 0)

def proposedDistance (ctx : Context) (stops : List Stop) (e : RouteEvaluation) : ℚ :=
  e.totalDistance + ((homeward ctx (positioned stops)).map RouteEdge.distanceMeters).getD 0

/-- The intent agrees with proposed stops and their timeline. -/
structure Agrees (ctx : Context) (stops : List Stop) (e : RouteEvaluation) : Prop where
  covers : CoversTasks ctx.tasks stops
  checkable : penalized ctx.constraints = false
  order : relativeOrderSatisfied (stops.map fun stop => stop.taskIndex.toNat)
    ctx.constraints.requiredTaskOrder = true
  each : ∀ (k : Nat) stop arrived, stops[k]? = some stop → e.arrivals[k]? = some arrived →
    StopAllowed ctx stop.task (candidateOf stop stop.taskIndex.toNat (k + 1)) arrived
  trip : TripAllowed ctx (positioned stops) (proposedFinish ctx stops e)
    (proposedDistance ctx stops e)

section

variable {way : TransportMode → Coordinate → Coordinate → RouteEdge} {mode : TransportMode}
  {points : List Coordinate} {ctx : Context} {selected : Nat → Option CandidateNode}
  {stops : List Stop} {items : List Item} {previous : Nat} {order : List Nat} {legs : List Leg}
  {origin : Coordinate} {start : DateTime} {baseline : ℚ} {e : RouteEvaluation}

theorem wayMatrix_edge {i j : Nat} {edge : RouteEdge} :
    (wayMatrix way mode points).edge i j = some edge ↔
      ∃ a b, points[i]? = some a ∧ points[j]? = some b ∧ edge = way mode a b := by
  simp only [RouteMatrix.edge, wayMatrix, List.getElem?_map, Option.bind_eq_some_iff,
    Option.map_eq_some_iff]
  constructor
  · rintro ⟨_, ⟨a, first, rfl⟩, found⟩
    rw [List.getElem?_map] at found
    obtain ⟨b, second, rfl⟩ := Option.map_eq_some_iff.mp found
    exact ⟨a, b, first, second, rfl⟩
  · rintro ⟨a, b, first, second, rfl⟩
    exact ⟨_, ⟨a, first, rfl⟩, by rw [List.getElem?_map, second]; rfl⟩

/-- Task, travel time and distance of a leg. -/
def Leg.measure (leg : Leg) : PlanningTask × ℚ × ℚ :=
  (leg.task, leg.edge.durationSeconds, leg.edge.distanceMeters)

/-- The same along stops, from a point on. -/
def measures (way : TransportMode → Coordinate → Coordinate → RouteEdge) (mode : TransportMode) :
    Coordinate → List Stop → List (PlanningTask × ℚ × ℚ)
  | _, [] => []
  | before, stop :: rest =>
      (stop.task, (way mode before stop.poi.location).durationSeconds,
        (way mode before stop.poi.location).distanceMeters) ::
          measures way mode stop.poi.location rest

theorem compatibilityMatrix_edge {matrix : RouteMatrix} {i j : Nat} {edge : RouteEdge} :
    (compatibilityMatrix matrix).edge i j = some edge ↔
      ∃ other, matrix.edge i j = some other ∧ edge = { other with confidence := 1 / 2 } := by
  simp only [RouteMatrix.edge, compatibilityMatrix, List.getElem?_map, Option.bind_eq_some_iff,
    Option.map_eq_some_iff]
  constructor
  · rintro ⟨_, ⟨row, first, rfl⟩, found⟩
    rw [List.getElem?_map] at found
    obtain ⟨other, second, rfl⟩ := Option.map_eq_some_iff.mp found
    exact ⟨other, ⟨row, first, second⟩, rfl⟩
  · rintro ⟨other, ⟨row, first, second⟩, rfl⟩
    exact ⟨_, ⟨row, first, rfl⟩, by rw [List.getElem?_map, second]; rfl⟩

/-- The proposer's legs run along the items in the order of the solver. -/
theorem solved_measures (along : Along (plainContext start
      (items.map fun item => item.stop.task)
      (wayMatrix way mode (origin :: items.map fun item => item.stop.poi.location)) baseline)
    (fun taskIndex => some (singleNode taskIndex)) previous order legs) {before : Coordinate}
    (here : (origin :: items.map fun item => item.stop.poi.location)[previous]? = some before) :
    legs.map Leg.measure =
      measures way mode before ((order.filterMap (items[·]?)).map Item.stop) := by
  induction along generalizing before with
  | nil => rfl
  | @cons previous taskIndex order leg rest chosen travels known onward ih =>
      obtain ⟨task, node, edge⟩ := leg
      obtain rfl : singleNode taskIndex = node := Option.some.inj chosen
      obtain ⟨item, found, rfl⟩ := Option.map_eq_some_iff.mp ((List.getElem?_map ..).symm.trans known)
      obtain ⟨_, crossed, rfl⟩ := compatibilityMatrix_edge.mp travels
      obtain ⟨a, b, first, second, rfl⟩ := wayMatrix_edge.mp crossed
      obtain rfl := Option.some.inj (here.symm.trans first)
      have there : (origin :: items.map fun item => item.stop.poi.location)[taskIndex + 1]? =
          some item.stop.poi.location := by
        rw [List.getElem?_cons_succ, List.getElem?_map, found]
        rfl
      obtain rfl := Option.some.inj (there.symm.trans second)
      rw [List.filterMap_cons, found, List.map_cons, List.map_cons, measures, ih there]
      rfl

/-- The legs along stops, from a point on. -/
def stopLegs (way : TransportMode → Coordinate → Coordinate → RouteEdge) (mode : TransportMode) :
    Nat → Coordinate → List Stop → List Leg
  | _, _, [] => []
  | k, before, stop :: rest =>
      ⟨stop.task, candidateOf stop stop.taskIndex.toNat (k + 1), way mode before stop.poi.location⟩ ::
        stopLegs way mode (k + 1) stop.poi.location rest

theorem stopLegs_measure (way : TransportMode → Coordinate → Coordinate → RouteEdge)
    (mode : TransportMode) (k : Nat) (before : Coordinate) (stops : List Stop) :
    (stopLegs way mode k before stops).map Leg.measure = measures way mode before stops := by
  induction stops generalizing k before with
  | nil => rfl
  | cons stop rest ih =>
      rw [stopLegs, List.map_cons, measures, ih]
      rfl

theorem stopLegs_stop (way : TransportMode → Coordinate → Coordinate → RouteEdge)
    (mode : TransportMode) (k : Nat) (before : Coordinate) (stops : List Stop) :
    (stopLegs way mode k before stops).map (fun leg => (leg.task, leg.node)) =
      (stops.zipIdx (k + 1)).map fun item =>
        (item.1.task, candidateOf item.1 item.1.taskIndex.toNat item.2) := by
  induction stops generalizing k before with
  | nil => rfl
  | cons stop rest ih => rw [stopLegs, List.map_cons, ih, List.zipIdx_cons, List.map_cons]

theorem stopLegs_node (way : TransportMode → Coordinate → Coordinate → RouteEdge)
    (mode : TransportMode) (before : Coordinate) (stops : List Stop) :
    (stopLegs way mode 0 before stops).map Leg.node = positioned stops := by
  have nodes := congrArg (List.map Prod.snd) (stopLegs_stop way mode 0 before stops)
  rwa [List.map_map, List.map_map] at nodes

/-- The validator's legs run along the stops. -/
theorem along_stops (matrix : ctx.matrix = wayMatrix way mode points) {k : Nat}
    {before : Coordinate} (here : points[k]? = some before)
    (located : ∀ (j : Nat) stop, stops[j]? = some stop →
      points[k + 1 + j]? = some stop.poi.location)
    (chosen : ∀ (j : Nat) stop, stops[j]? = some stop → selected stop.taskIndex.toNat =
      some (candidateOf stop stop.taskIndex.toNat (k + 1 + j)))
    (known : ∀ stop ∈ stops, ctx.tasks[stop.taskIndex.toNat]? = some stop.task) :
    Along ctx selected k (stops.map fun stop => stop.taskIndex.toNat)
      (stopLegs way mode k before stops) := by
  induction stops generalizing k before with
  | nil => exact .nil k
  | cons stop rest ih =>
      have there : points[k + 1]? = some stop.poi.location := located 0 stop rfl
      refine .cons (chosen 0 stop rfl) ?_ (known stop List.mem_cons_self) ?_
      · rw [matrix]
        exact wayMatrix_edge.mpr ⟨before, _, here, there, rfl⟩
      · refine ih there (fun j other found => ?_) (fun j other found => ?_)
          fun other member => known other (List.mem_cons_of_mem _ member)
        · have place := located (j + 1) other found
          rwa [show k + 1 + (j + 1) = k + 1 + 1 + j by omega] at place
        · have node := chosen (j + 1) other found
          rwa [show k + 1 + (j + 1) = k + 1 + 1 + j by omega] at node

/-- A timetable by its positions: the leg and the time at which its stop is reached. -/
theorem timetable_getElem? (before : DateTime) (legs : List Leg) (k : Nat) :
    ((timetable before legs)[k]?).map Prod.fst = legs[k]? := by
  rw [← List.getElem?_map, timetable_legs]

/-- Stop by stop, the validator finds a conflict where the intent asks for more than the proposer
has checked. -/
theorem stops_clear_iff {plain : Context} {start : DateTime} {legs legs' : List Leg}
    (stopped : legs'.map (fun leg => (leg.task, leg.node)) = (stops.zipIdx 1).map fun item =>
      (item.1.task, candidateOf item.1 item.1.taskIndex.toNat item.2))
    (same : (timetable start legs).map (fun entry => (entry.1.task, entry.2)) =
      (timetable start legs').map fun entry => (entry.1.task, entry.2))
    (clear : ∀ entry ∈ timetable start legs,
      stopConflicts plain entry.1.task entry.1.node entry.2 = []) :
    (∀ entry ∈ timetable start legs', stopConflicts ctx entry.1.task entry.1.node entry.2 = []) ↔
      ∀ (k : Nat) stop arrived, stops[k]? = some stop →
        ((timetable start legs).map fun entry => arrival entry.1.task entry.2)[k]? = some arrived →
        StopAllowed ctx stop.task (candidateOf stop stop.taskIndex.toNat (k + 1)) arrived := by
  have times (k : Nat) : ((timetable start legs)[k]?).map (fun entry => (entry.1.task, entry.2)) =
      ((timetable start legs')[k]?).map fun entry => (entry.1.task, entry.2) := by
    rw [← List.getElem?_map, ← List.getElem?_map, same]
  have places (k : Nat) : (legs'[k]?).map (fun leg => (leg.task, leg.node)) =
      (stops[k]?).map fun stop =>
        (stop.task, candidateOf stop stop.taskIndex.toNat (k + 1)) := by
    rw [← List.getElem?_map, stopped, List.getElem?_map, List.getElem?_zipIdx, Option.map_map,
      Nat.add_comm]
    rfl
  constructor
  · intro quiet k stop arrived here reached
    obtain ⟨entry, atTable, rfl⟩ := Option.map_eq_some_iff.mp ((List.getElem?_map ..).symm.trans reached)
    obtain ⟨entry', atTable', paired⟩ := Option.map_eq_some_iff.mp
      ((times k).symm.trans (by rw [atTable]; rfl))
    have leg : legs'[k]? = some entry'.1 := by
      rw [← timetable_getElem? start, atTable']
      rfl
    have placed := places k
    rw [leg, here] at placed
    obtain ⟨task, node⟩ := Prod.mk.inj (Option.some.inj placed)
    obtain ⟨task', time⟩ := Prod.mk.inj paired
    have allowed := (stopConflicts_eq_nil_iff.mp (quiet entry' (List.mem_of_getElem? atTable'))).2
    rw [← task', ← time]
    rw [task, node] at allowed
    rw [task]
    exact allowed
  · intro allowed entry' member
    obtain ⟨k, atTable'⟩ := List.mem_iff_getElem?.mp member
    obtain ⟨entry, atTable, paired⟩ := Option.map_eq_some_iff.mp
      ((times k).trans (by rw [atTable']; rfl))
    obtain ⟨task', time⟩ := Prod.mk.inj paired
    have leg : legs'[k]? = some entry'.1 := by
      rw [← timetable_getElem? start, atTable']
      rfl
    obtain ⟨stop, here, placed⟩ := Option.map_eq_some_iff.mp ((places k).symm.trans (by rw [leg]; rfl))
    obtain ⟨task, node⟩ := Prod.mk.inj placed
    have reached : ((timetable start legs).map fun entry => arrival entry.1.task entry.2)[k]? =
        some (arrival entry.1.task entry.2) := by
      rw [List.getElem?_map, atTable]
      rfl
    have booked := (stopConflicts_eq_nil_iff.mp (clear entry (List.mem_of_getElem? atTable))).1
    have met := allowed k stop _ here reached
    rw [task', time] at booked met
    rw [task, node] at met
    exact stopConflicts_eq_nil_iff.mpr ⟨booked, met⟩

/-- The validator's legs run along stops that carry their tasks. -/
theorem along_positioned (distinct : ((positioned stops).map CandidateNode.taskIndex).Nodup)
    (carries : ∀ stop ∈ stops, ctx.tasks[stop.taskIndex.toNat]? = some stop.task)
    (matrix : ctx.matrix =
      wayMatrix way mode (origin :: stops.map fun stop => stop.poi.location)) :
    Along ctx (selectionOf (positioned stops)) 0 (stops.map fun stop => stop.taskIndex.toNat)
      (stopLegs way mode 0 origin stops) := by
  refine along_stops matrix rfl (fun j stop found => ?_) (fun j stop found => ?_) carries
  · rw [Nat.zero_add, Nat.add_comm, List.getElem?_cons_succ, List.getElem?_map, found]
    rfl
  · have placed : (positioned stops)[j]? =
        some (candidateOf stop stop.taskIndex.toNat (j + 1)) := by
      rw [positioned_getElem?, found]
      rfl
    rw [Nat.zero_add, Nat.add_comm]
    exact selectionOf_of_mem distinct (List.mem_of_getElem? placed)

/-- From the last leg there is a way back. -/
theorem return_edge {leg : Leg} (last : (stopLegs way mode 0 origin stops).getLast? = some leg) :
    ∃ edge, (wayMatrix way mode (origin :: stops.map fun stop => stop.poi.location)).edge
      leg.node.matrixIndex 0 = some edge := by
  have node : (positioned stops).getLast? = some leg.node := by
    rw [← stopLegs_node way mode origin stops, List.getLast?_map, last]
    rfl
  have occupied : stops ≠ [] := by
    rintro rfl
    contradiction
  obtain ⟨node', last', point⟩ := positioned_last occupied
  obtain rfl := Option.some.inj (node.symm.trans last')
  obtain ⟨stop, ends⟩ := Option.ne_none_iff_exists'.mp (mt List.getLast?_eq_none_iff.mp occupied)
  obtain ⟨count, same⟩ := Nat.exists_eq_add_of_lt (List.length_pos_of_ne_nil occupied)
  rw [point]
  refine ⟨_, wayMatrix_edge.mpr ⟨stop.poi.location, origin, ?_, rfl, rfl⟩⟩
  rw [same, Nat.zero_add, List.getElem?_cons_succ, List.getElem?_map,
    show count = stops.length - 1 by omega, ← List.getLast?_eq_getElem?, ends]
  rfl

/-- The validator can evaluate the stops, on the proposer's timeline. -/
theorem validated_along {intent : PlanningIntent} {departure : DateTime} {plain : Context}
    (covers : CoversTasks intent.tasks stops)
    (carries : ∀ stop ∈ stops, intent.tasks[stop.taskIndex.toNat]? = some stop.task)
    (taken : e.Takes plain legs) (departs : plain.departure = departure)
    (stays : plain.constraints.mustReturnToOrigin = false) (feasible : e.feasible = true)
    (measured : legs.map Leg.measure = measures way intent.transportMode origin stops)
    (context : ctx = validationContext intent departure (wayMatrix way intent.transportMode
      (origin :: stops.map fun stop => stop.poi.location))) :
    ∃ e', evaluateJointOrder ctx (stops.map fun stop => stop.taskIndex.toNat)
        (selectionOf (positioned stops)) = some e' ∧
      (e'.feasible = true ∧ penalized ctx.constraints = false ↔ Agrees ctx stops e) := by
  have matrix : ctx.matrix = wayMatrix way intent.transportMode
      (origin :: stops.map fun stop => stop.poi.location) := by rw [context]; rfl
  have tasks : ctx.tasks = intent.tasks := by rw [context]; rfl
  have start : ctx.departure = plain.departure := by rw [context, departs]; rfl
  have along := along_positioned (positioned_taskIndex ▸ covers.distinct_toNat)
    (fun stop member => tasks ▸ carries stop member) matrix
  obtain ⟨e', evaluated⟩ := evaluate_isSome along fun leg last => matrix ▸ return_edge last
  obtain ⟨order, legs', along', taken'⟩ := evaluate_takes evaluated
  obtain rfl := Along.unique along along'
  -- Legs of the same measures are run at the same times, whichever matrix they are read from.
  have same := measured.trans (stopLegs_measure way intent.transportMode 0 origin stops).symm
  have pace : legs.map Leg.pace =
      (stopLegs way intent.transportMode 0 origin stops).map Leg.pace := by
    have paced := congrArg (List.map fun measure => (measure.1, measure.2.1)) same
    rwa [List.map_map, List.map_map] at paced
  have times := timetable_congr plain.departure pace
  have nodes : e'.selectedNodes = positioned stops :=
    taken'.nodes.trans (stopLegs_node way intent.transportMode origin stops)
  have departures : e'.departures = e.departures := by
    have left := congrArg (List.map fun entry : PlanningTask × DateTime =>
      (arrival entry.1 entry.2).add (minutesDelta
        (max entry.1.serviceDurationMinutes (entry.1.minServiceDurationMinutes.getD 0)))) times
    rw [List.map_map, List.map_map] at left
    rw [taken'.departures, taken.departures, start]
    exact left.symm
  have finish : e'.finish ctx = proposedFinish ctx stops e := by
    rw [RouteEvaluation.finish, proposedFinish, departures, nodes]
  have distance : e'.totalDistance = proposedDistance ctx stops e := by
    have metres := congrArg (List.map fun measure : PlanningTask × ℚ × ℚ => measure.2.2) same
    rw [List.map_map, List.map_map] at metres
    have total : e.totalDistance = (legs.map fun leg => leg.edge.distanceMeters).sum := by
      rw [taken.distance, homeward, stays]
      exact add_zero _
    rw [taken'.distance, proposedDistance, total, nodes]
    exact congrArg (List.sum · + _) metres.symm
  have quiet := (taken.feasible.mp feasible).2.1
  refine ⟨e', evaluated, ?_⟩
  rw [taken'.feasible, start, stops_clear_iff (stopLegs_stop way intent.transportMode 0 origin stops)
    times quiet, ← taken.arrivals, nodes, finish, distance, order]
  constructor
  · rintro ⟨⟨sorted, each, trip⟩, checkable⟩
    exact ⟨tasks ▸ covers, checkable, sorted, each, trip⟩
  · intro agrees
    exact ⟨⟨agrees.order, agrees.each, agrees.trip⟩, agrees.checkable⟩

/-- Stops that cover the tasks are selected one by one. -/
theorem selected_of_covers {tasks : List PlanningTask} (covers : CoversTasks tasks stops) :
    (selectStops tasks.length stops).order = stops.map (fun stop => stop.taskIndex.toNat) ∧
      (selectStops tasks.length stops).nodes = positioned stops := by
  have clean := selectStops_conflicts_iff.mpr ⟨covers.valid, covers.distinct⟩
  exact ⟨selectStops_order clean, selectStops_nodes clean⟩

/-- The times of every stop can be written. -/
theorem retimes_exist {intent : PlanningIntent} {departure : DateTime} {matrix : RouteMatrix}
    (covers : CoversTasks intent.tasks stops) (evaluated : evaluateJointOrder
      (validationContext intent departure matrix) (stops.map fun stop => stop.taskIndex.toNat)
      (selectionOf (positioned stops)) = some e) :
    ∃ written, stops.mapM (retime intent matrix (selectStops intent.tasks.length stops) e) =
      some written := by
  obtain ⟨order, nodes⟩ := selected_of_covers covers
  obtain ⟨chosen, edges, home, follows⟩ := evaluate_follows evaluated
  obtain rfl := nodes_eq_positioned covers follows.chosen
  have size : edges.length = stops.length := (legs_length follows.along).trans positioned_length
  have times := follows.timed.lengths
  have each : ∀ stop ∈ stops, ∃ timed,
      retime intent matrix (selectStops intent.tasks.length stops) e stop = some timed := by
    intro stop member
    obtain ⟨k, here⟩ := List.mem_iff_getElem?.mp member
    have inside := (List.getElem?_eq_some_iff.mp here).1
    have joined : matrix.edge (0 + k) (0 + k + 1) = edges[k]? :=
      legs_positions follows.along positioned_matrixIndex (by
        rw [List.length_range']) k (by rwa [positioned_length])
    obtain ⟨least, most⟩ := covers.valid stop member
    have known : stop.taskIndex.toNat < intent.tasks.length := by omega
    rw [Nat.zero_add] at joined
    rw [retime_here covers.distinct_toNat order nodes here, joined,
      List.getElem?_eq_getElem (size ▸ inside),
      List.getElem?_eq_getElem (times.1.trans size ▸ inside),
      List.getElem?_eq_getElem (times.2.trans size ▸ inside), List.getElem?_eq_getElem known]
    exact ⟨_, rfl⟩
  obtain ⟨written, mapped, -⟩ := mapM_exists each
  exact ⟨written, mapped⟩

/-- The validator accepts the stops exactly where the intent agrees. -/
theorem recalculates_iff {provider : MapProvider} {patched : Snapshot} {departure : DateTime}
    {plain : Context} (ways : provider.Ways way)
    (carries : ∀ stop ∈ stops, patched.intent.tasks[stop.taskIndex.toNat]? = some stop.task)
    (taken : e.Takes plain legs) (departs : plain.departure = departure)
    (stays : plain.constraints.mustReturnToOrigin = false) (feasible : e.feasible = true)
    (measured : legs.map Leg.measure = measures way patched.intent.transportMode origin stops) :
    (∃ updated, recalculateAndValidateSnapshot provider patched stops
        (some { origin := some origin, departureTime := some departure }) = .ok (updated, [])) ↔
      Agrees (validationContext patched.intent departure (wayMatrix way
        patched.intent.transportMode (origin :: stops.map fun stop => stop.poi.location))) stops
          e := by
  have routed := ways (origin :: stops.map fun stop => stop.poi.location)
    patched.intent.transportMode
  constructor
  · rintro ⟨updated, validated⟩
    obtain ⟨-, found⟩ | ⟨covers, e', evaluated, empty⟩ :=
      recalculateAndValidateSnapshot_spec validated
    · exact absurd rfl found
    · obtain ⟨order, nodes⟩ := selected_of_covers covers
      obtain ⟨other, evaluated', agrees⟩ :=
        validated_along covers carries taken departs stays feasible measured rfl
      have same : some e' = some other := by
        rw [← evaluated, ← evaluated', recalculated]
        simp only [Option.getD_some, Option.some_or, routed, bind, Option.bind_some, order, nodes]
      obtain rfl := Option.some.inj same
      exact agrees.mp (empty.mp rfl)
  · intro agrees
    have covers : CoversTasks patched.intent.tasks stops := agrees.covers
    obtain ⟨order, nodes⟩ := selected_of_covers covers
    obtain ⟨e', evaluated, agreed⟩ :=
      validated_along covers carries taken departs stays feasible measured rfl
    obtain ⟨written, retimed⟩ := retimes_exist covers evaluated
    have none : e'.conflicts = [] := (conflicts_eq_nil_iff rfl evaluated).mpr (agreed.mpr agrees)
    simp only [recalculateAndValidateSnapshot, Option.getD_some, Option.some_or, routed, orRaise,
      identityConflicts_eq_nil_iff.mpr covers, order, nodes, evaluated, retimed, none, bind,
      Except.bind, ne_eq, not_true_eq_false, ↓reduceIte, List.map_nil]
    exact ⟨_, rfl⟩

end

/-- The intent that a proposal is judged against, with its transport mode. -/
def proposedIntent (snapshot : Snapshot) (chosen : Solved) : PlanningIntent :=
  { snapshot.intent with transportMode := chosen.mode }

/-- What the validator evaluates a proposal with, over the given ways. -/
def proposedContext (way : TransportMode → Coordinate → Coordinate → RouteEdge)
    (snapshot : Snapshot) (request : PendingReplanRequest) (chosen : Solved) (stops : List Stop) :
    Context :=
  validationContext (proposedIntent snapshot chosen) request.currentTime
    (wayMatrix way chosen.mode (request.currentLocation :: stops.map fun stop => stop.poi.location))

section

variable {way : TransportMode → Coordinate → Coordinate → RouteEdge} {solver : RoutingSolver}
  {provider : MapProvider} {trip : TripSession} {request : PendingReplanRequest}
  {snapshot : Snapshot} {operations : List Operation} {impact : Impact}
  {alternatives : List Alternative}

/-- The proposer's evaluation runs along the proposed stops. -/
theorem Proposal.takes (complete : solver.Complete) (ways : provider.Ways way)
    (proposal : Proposal solver provider trip request snapshot operations impact alternatives) :
    ∃ plain legs, plain.departure = request.currentTime ∧
      plain.constraints.mustReturnToOrigin = false ∧
      proposal.chosen.evaluation.Takes plain legs ∧
      legs.map Leg.measure = measures way proposal.chosen.mode request.currentLocation
        (proposal.ordered.map Decision.chosen) := by
  have solved := proposal.solved
  simp only [solveAttempt, bind, Option.bind_eq_some_iff, pure, Option.some.injEq] at solved
  obtain ⟨matrix, routed, ⟨evaluation, algorithm⟩, optimized, made⟩ := solved
  obtain rfl := Option.some.inj (routed.symm.trans (ways _ _))
  obtain ⟨order, baseline, -, evaluated⟩ := optimizeRoute_spec complete optimized
  obtain ⟨same, legs, along, taken⟩ := evaluate_takes evaluated
  have stops : proposal.ordered.map Decision.chosen = proposal.chosen.ordered.map Item.stop := by
    rw [← proposal.ordered_item, List.map_map]
    rfl
  have report : evaluation = proposal.chosen.evaluation := congrArg Solved.evaluation made
  rw [report] at same taken
  have measured : legs.map Leg.measure = measures way proposal.chosen.mode request.currentLocation
      (proposal.ordered.map Decision.chosen) := by
    rw [stops, Solved.ordered, same]
    exact solved_measures along rfl
  exact ⟨_, legs, rfl, rfl, taken, measured⟩

end

/-! A quarter of an hour late, the trip to the museums can go on with both stops. With the first
one done, the patch removes it, and the validator misses its task. -/

/-- What the validator reports of a patch. -/
def reported (provider : MapProvider) (snapshot : Snapshot) (operations : List Operation)
    (impact : Impact) : Option (List String) :=
  match applyPatchStructure snapshot operations with
  | .error _ => none
  | .ok (patched, stops) =>
      (recalculateAndValidateSnapshot provider patched stops impact.replanContext).toOption.map
        Prod.snd

theorem acceptable_iff_reported {provider : MapProvider} {snapshot : Snapshot}
    {operations : List Operation} {impact : Impact} :
    Acceptable provider snapshot operations impact ↔
      reported provider snapshot operations impact = some [] := by
  unfold reported
  constructor
  · rintro ⟨patched, stops, updated, applied, validated⟩
    rw [applied]
    simp only [validated, Except.toOption, Option.map_some]
  · intro none
    split at none
    · contradiction
    · rename_i patched stops applied
      obtain ⟨updated, validated⟩ := answered_of_conflicts none
      exact ⟨patched, stops, updated, applied, validated⟩

theorem evenProvider_ways : evenProvider.Ways fun _ _ _ => ⟨60, 60, 1⟩ := by
  intro points mode
  simp only [evenProvider, wayMatrix, List.map_const']

theorem museumPlan_carries : ∀ version ∈ museumRun.versions, version.snapshot.CarriesTasks := by
  intro version stored
  obtain rfl := List.mem_singleton.mp stored
  unfold Snapshot.CarriesTasks
  decide

/-- What the review and the validator say of a created patch. -/
def judged (snapshot : Snapshot) : Replanned → Option (Verdict × Option (List String))
  | .created operations impact alternatives =>
      some ((reviewDynamicPatch snapshot
          (artifactOf 1 1 (.created operations impact alternatives))).verdict,
        reported evenProvider snapshot operations impact)
  | _ => none

theorem judged_some {snapshot : Snapshot} {answer : Replanned} {verdict : Verdict}
    {conflicts : Option (List String)} (said : judged snapshot answer = some (verdict, conflicts)) :
    ∃ operations impact alternatives, answer = .created operations impact alternatives ∧
      (reviewDynamicPatch snapshot
        (artifactOf 1 1 (.created operations impact alternatives))).verdict = verdict ∧
      reported evenProvider snapshot operations impact = conflicts := by
  cases answer with
  | created operations impact alternatives =>
      obtain ⟨reviewed, validated⟩ := Prod.mk.inj (Option.some.inj said)
      exact ⟨operations, impact, alternatives, rfl, reviewed, validated⟩
  | _ => contradiction

/-- The first museum is done. -/
def halfDone : PendingReplanRequest := { delayed 900 with completedStopIds := ["A"] }

end MapGo.Patch
