import MapGo.Patch.Exactness
import MapGo.Route.Timeline

/-! What an accepted snapshot looks like. Stops, matrix points, task indices and positions of the
evaluation are numbered apart; without conflicts they name the same stops in the same order. -/
namespace MapGo.Patch

open MapGo.Route

/-- The candidates of the stops, on the points of the matrix behind the origin. -/
def positioned (stops : List Stop) : List CandidateNode :=
  (stops.zipIdx 1).map fun item => candidateOf item.1 item.1.taskIndex.toNat item.2

/-- The validator writes only times, travel and the check mark of a stop. -/
def Retimed (stop timed : Stop) : Prop :=
  timed = { stop with
    arrivalTime := timed.arrivalTime
    departureTime := timed.departureTime
    travel := timed.travel
    constraintSatisfied := timed.constraintSatisfied }

/-- The stops of an accepted snapshot along the evaluation of their order. -/
structure AcceptedStops (intent : PlanningIntent) (departure : DateTime) (matrix : RouteMatrix)
    (stops : List Stop) (e : RouteEvaluation) (edges : List RouteEdge) (home : Option RouteEdge) :
    Prop where
  covers : CoversTasks intent.tasks stops
  evaluated : evaluateJointOrder (validationContext intent departure matrix)
    (stops.map fun stop => stop.taskIndex.toNat) (selectionOf (positioned stops)) = some e
  legs : ∀ k < stops.length, matrix.edge k (k + 1) = edges[k]?
  travel : stops.map (fun stop => stop.travel) = edges.map some
  arrivals : stops.map (fun stop => stop.arrivalTime) = e.arrivals.map some
  departures : stops.map (fun stop => stop.departureTime) = e.departures.map some
  timed : Timed departure edges e.arrivals e.departures
  returns : intent.hard.mustReturnToOrigin = true → stops ≠ [] →
    ∃ edge, matrix.edge stops.length 0 = some edge ∧ home = some edge
  stays : intent.hard.mustReturnToOrigin = false ∨ stops = [] → home = none

variable {stops : List Stop} {tasks : List PlanningTask} {count : Nat}

theorem selectStops_nodes (clean : (selectStops count stops).conflicts = []) :
    (selectStops count stops).nodes = positioned stops := by
  rw [selectStops, (foldl_selectStop_clean clean).2]
  rfl

theorem positioned_getElem? (k : Nat) : (positioned stops)[k]? =
    (stops[k]?).map fun stop => candidateOf stop stop.taskIndex.toNat (k + 1) := by
  rw [positioned, List.getElem?_map, List.getElem?_zipIdx, Option.map_map, Nat.add_comm]
  rfl

theorem positioned_taskIndex : (positioned stops).map CandidateNode.taskIndex =
    stops.map fun stop => stop.taskIndex.toNat := by
  rw [positioned, List.map_map]
  change (stops.zipIdx 1).map ((fun stop : Stop => stop.taskIndex.toNat) ∘ Prod.fst) = _
  rw [← List.map_map, List.zipIdx_map_fst]

theorem positioned_matrixIndex : (positioned stops).map CandidateNode.matrixIndex =
    List.range' 1 stops.length := by
  rw [positioned, List.map_map]
  exact List.zipIdx_map_snd 1 stops

theorem positioned_length : (positioned stops).length = stops.length := by
  rw [positioned, List.length_map, List.length_zipIdx]

theorem positioned_last (occupied : stops ≠ []) :
    ∃ node, (positioned stops).getLast? = some node ∧ node.matrixIndex = stops.length := by
  have point : ((positioned stops).getLast?).map CandidateNode.matrixIndex = some stops.length := by
    rw [← List.getLast?_map, positioned_matrixIndex, List.getLast?_range',
      if_neg (mt List.eq_nil_of_length_eq_zero occupied)]
    congr 1
    omega
  exact Option.map_eq_some_iff.mp point

theorem CoversTasks.distinct_toNat (covers : CoversTasks tasks stops) :
    (stops.map fun stop => stop.taskIndex.toNat).Nodup := by
  have named : (stops.map fun stop => stop.taskIndex.toNat).map Int.ofNat =
      stops.map Stop.taskIndex := by
    rw [List.map_map]
    exact List.map_congr_left fun stop member => Int.toNat_of_nonneg (covers.valid stop member).1
  apply List.Nodup.of_map Int.ofNat
  rw [named]
  exact covers.distinct

/-- Only the task indices decide which tasks are covered. -/
theorem CoversTasks.congr {others : List Stop} (covers : CoversTasks tasks stops)
    (same : others.map Stop.taskIndex = stops.map Stop.taskIndex) : CoversTasks tasks others := by
  constructor
  · intro stop member
    have named := List.mem_map_of_mem (f := Stop.taskIndex) member
    rw [same] at named
    obtain ⟨other, inside, equal⟩ := List.mem_map.mp named
    rw [← equal]
    exact covers.valid other inside
  · rw [same]
    exact covers.distinct
  · intro index task found required
    obtain ⟨stop, member, named⟩ := covers.present index task found required
    have inside := List.mem_map_of_mem (f := Stop.taskIndex) member
    rw [← same] at inside
    obtain ⟨other, present, equal⟩ := List.mem_map.mp inside
    exact ⟨other, present, equal.trans named⟩

/-- The candidates of an evaluation along the stops are those of the stops. -/
theorem nodes_eq_positioned {nodes : List CandidateNode} (covers : CoversTasks tasks stops)
    (chosen : nodes.map some =
      (stops.map fun stop => stop.taskIndex.toNat).map (selectionOf (positioned stops))) :
    nodes = positioned stops := by
  have distinct := covers.distinct_toNat
  rw [← positioned_taskIndex] at chosen distinct
  rw [List.map_map] at chosen
  apply List.map_injective_iff.mpr (Option.some_injective _)
  rw [chosen]
  exact List.map_congr_left fun node member => selectionOf_of_mem distinct member

theorem map_eq_map_some {α β : Type} {f : α → Option β} {items : List α} {results : List β}
    (size : results.length = items.length)
    (each : ∀ (k : Nat) item, items[k]? = some item → f item = results[k]?) :
    items.map f = results.map some := by
  apply List.ext_getElem
  · rw [List.length_map, List.length_map, size]
  · intro k left right
    rw [List.getElem_map, List.getElem_map]
    rw [List.length_map] at left right
    have here : items[k]? = some items[k] := List.getElem?_eq_getElem left
    have there : results[k]? = some results[k] := List.getElem?_eq_getElem right
    rw [each k _ here, there]

/-- The loop that writes the times finds each stop at its own position. -/
theorem retime_here {intent : PlanningIntent} {matrix : RouteMatrix} {selected : Selected}
    {e : RouteEvaluation} {stop : Stop} {k : Nat}
    (distinct : (stops.map fun stop => stop.taskIndex.toNat).Nodup)
    (order : selected.order = stops.map fun stop => stop.taskIndex.toNat)
    (nodes : selected.nodes = positioned stops) (here : stops[k]? = some stop) :
    retime intent matrix selected e stop = (matrix.edge k (k + 1)).bind fun edge =>
      (e.arrivals[k]?).bind fun arrived => (e.departures[k]?).bind fun left =>
        (intent.tasks[stop.taskIndex.toNat]?).bind fun task => some
          { stop with
            arrivalTime := some arrived
            departureTime := some left
            travel := some edge
            constraintSatisfied :=
              some (!(e.conflicts.any fun conflict => contains conflict.text task.description)) } := by
  obtain ⟨inside, rfl⟩ := List.getElem?_eq_some_iff.mp here
  have position : selected.order.idxOf stops[k].taskIndex.toNat = k := by
    have place : k < (stops.map fun stop => stop.taskIndex.toNat).length := by
      rwa [List.length_map]
    have found := distinct.idxOf_getElem k place
    simp only [List.getElem_map] at found
    rw [order, found]
  have point : selected.nodes[k]? = some (candidateOf stops[k] stops[k].taskIndex.toNat (k + 1)) := by
    rw [nodes, positioned_getElem?, here]
    rfl
  simp only [retime, position, point, bind, Option.bind_some]
  cases k with
  | zero => rfl
  | succ k =>
      rw [if_neg (Nat.succ_ne_zero k), Nat.add_sub_cancel, nodes, positioned_getElem?,
        List.getElem?_eq_getElem (Nat.lt_of_succ_lt inside)]
      rfl

theorem retime_at {intent : PlanningIntent} {matrix : RouteMatrix} {selected : Selected}
    {e : RouteEvaluation} {stop timed : Stop} {k : Nat}
    (distinct : (stops.map fun stop => stop.taskIndex.toNat).Nodup)
    (order : selected.order = stops.map fun stop => stop.taskIndex.toNat)
    (nodes : selected.nodes = positioned stops) (here : stops[k]? = some stop)
    (written : retime intent matrix selected e stop = some timed) :
    Retimed stop timed ∧ timed.travel = matrix.edge k (k + 1) ∧
      timed.arrivalTime = e.arrivals[k]? ∧ timed.departureTime = e.departures[k]? := by
  rw [retime_here distinct order nodes here] at written
  simp only [Option.bind_eq_some_iff, Option.some.injEq] at written
  obtain ⟨edge, travelled, arrived, arrives, left, leaves, task, -, rfl⟩ := written
  exact ⟨rfl, travelled.symm, arrives.symm, leaves.symm⟩

/-- A validation without conflicts is one of stops that cover the tasks, with the times of an
evaluation written into them. -/
theorem accepted_eq {provider : MapProvider} {snapshot updated : Snapshot}
    {replanContext : Option ReplanContext}
    (validated : recalculateAndValidateSnapshot provider snapshot stops replanContext =
      .ok (updated, [])) :
    ∃ origin departure matrix e written,
      (replanContext.getD {}).origin.or snapshot.origin = some origin ∧
      (replanContext.getD {}).departureTime.or snapshot.departureTime = some departure ∧
      provider.routeMatrix (origin :: stops.map fun stop => stop.poi.location)
        snapshot.intent.transportMode = some matrix ∧
      CoversTasks snapshot.intent.tasks stops ∧
      evaluateJointOrder (validationContext snapshot.intent departure matrix)
        (selectStops snapshot.intent.tasks.length stops).order
        (selectionOf (selectStops snapshot.intent.tasks.length stops).nodes) = some e ∧
      stops.mapM (retime snapshot.intent matrix
        (selectStops snapshot.intent.tasks.length stops) e) = some written ∧
      updated.stops = written ∧ updated.totalDistanceMeters = some e.totalDistance ∧
      updated.totalTravelSeconds = some e.totalTravelSeconds ∧
      updated.departureTime = some departure ∧ updated.intent = snapshot.intent := by
  unfold recalculateAndValidateSnapshot at validated
  dsimp only at validated
  split at validated
  next origin departure located timed =>
    obtain ⟨matrix, answered, checked⟩ := bind_eq_ok.mp validated
    split at checked
    next found =>
      injection checked with same
      exact absurd (congrArg Prod.snd same) found
    next clean =>
      obtain ⟨e, evaluated, retimed⟩ := bind_eq_ok.mp checked
      obtain ⟨written, rewritten, same⟩ := bind_eq_ok.mp retimed
      injection same with same
      obtain ⟨rfl, -⟩ := Prod.mk.inj same
      exact ⟨origin, departure, matrix, e, written, located, timed, orRaise_eq_ok.mp answered,
        identityConflicts_eq_nil_iff.mp (not_not.mp clean), orRaise_eq_ok.mp evaluated,
        orRaise_eq_ok.mp rewritten, rfl, rfl, rfl, rfl, rfl⟩
  next => contradiction

theorem positioned_retimed {written : List Stop} (kept : List.Forall₂ Retimed stops written) :
    positioned written = positioned stops := by
  have run (first : Nat) : (written.zipIdx first).map
        (fun item => candidateOf item.1 item.1.taskIndex.toNat item.2) =
      (stops.zipIdx first).map fun item => candidateOf item.1 item.1.taskIndex.toNat item.2 := by
    induction kept generalizing first with
    | nil => rfl
    | cons same rest ih =>
        rw [List.zipIdx_cons, List.zipIdx_cons, List.map_cons, List.map_cons, ih]
        congr 1
        rw [same]
        rfl
  exact run 1

/-- Only the times of the stops are written. -/
theorem written_retimed {intent : PlanningIntent} {matrix : RouteMatrix} {e : RouteEvaluation}
    {written : List Stop} (covers : CoversTasks intent.tasks stops)
    (rewritten : stops.mapM (retime intent matrix (selectStops intent.tasks.length stops) e) =
      some written) : List.Forall₂ Retimed stops written := by
  have clean := selectStops_conflicts_iff.mpr ⟨covers.valid, covers.distinct⟩
  have paired := mapM_forall₂ rewritten
  refine List.forall₂_iff_get.mpr ⟨paired.length_eq, fun k place inside => ?_⟩
  exact (retime_at covers.distinct_toNat (selectStops_order clean) (selectStops_nodes clean)
    (List.getElem?_eq_getElem place) (paired.get place inside)).1

theorem retimed_map {β : Type} {f : Stop → β} {written : List Stop}
    (kept : List.Forall₂ Retimed stops written)
    (same : ∀ stop timed, Retimed stop timed → f timed = f stop) :
    written.map f = stops.map f := by
  induction kept with
  | nil => rfl
  | cons first rest ih => rw [List.map_cons, List.map_cons, ih, same _ _ first]

theorem retimed_taskIndex {written : List Stop} (kept : List.Forall₂ Retimed stops written) :
    written.map Stop.taskIndex = stops.map Stop.taskIndex :=
  retimed_map kept fun _ _ same => by rw [same]

/-- An accepted snapshot has well-formed stops, the given ones with times and travel written, and
its totals are the sums over their edges and the way home. -/
theorem accepted_snapshot_well_formed {provider : MapProvider} {snapshot updated : Snapshot}
    {replanContext : Option ReplanContext}
    (validated : recalculateAndValidateSnapshot provider snapshot stops replanContext =
      .ok (updated, [])) :
    ∃ origin departure matrix e edges home,
      (replanContext.getD {}).origin.or snapshot.origin = some origin ∧
      (replanContext.getD {}).departureTime.or snapshot.departureTime = some departure ∧
      provider.routeMatrix (origin :: stops.map fun stop => stop.poi.location)
        snapshot.intent.transportMode = some matrix ∧
      List.Forall₂ Retimed stops updated.stops ∧
      AcceptedStops updated.intent departure matrix updated.stops e edges home ∧
      updated.departureTime = some departure ∧
      updated.totalDistanceMeters = some ((edges.map RouteEdge.distanceMeters).sum +
        (home.map RouteEdge.distanceMeters).getD 0) ∧
      updated.totalTravelSeconds = some ((edges.map RouteEdge.durationSeconds).sum +
        (home.map RouteEdge.durationSeconds).getD 0) := by
  obtain ⟨origin, departure, matrix, e, written, located, timed, routed, covers, evaluated,
    rewritten, rfl, metres, seconds, left, intent⟩ := accepted_eq validated
  have clean := selectStops_conflicts_iff.mpr ⟨covers.valid, covers.distinct⟩
  have order := selectStops_order clean
  have nodes := selectStops_nodes clean
  rw [order, nodes] at evaluated
  obtain ⟨chosen, edges, home, follows⟩ := evaluate_follows evaluated
  obtain rfl := nodes_eq_positioned covers follows.chosen
  have size : edges.length = stops.length := (legs_length follows.along).trans positioned_length
  have times := follows.timed.lengths
  have paired := mapM_forall₂ rewritten
  have stopAt : ∀ (k : Nat) stop, updated.stops[k]? = some stop →
      stop.travel = matrix.edge k (k + 1) ∧ stop.arrivalTime = e.arrivals[k]? ∧
        stop.departureTime = e.departures[k]? := by
    intro k stop here
    obtain ⟨inside, rfl⟩ := List.getElem?_eq_some_iff.mp here
    have place : k < stops.length := by rwa [paired.length_eq]
    have written := paired.get place inside
    exact (retime_at covers.distinct_toNat order nodes (List.getElem?_eq_getElem place) written).2
  have kept : List.Forall₂ Retimed stops updated.stops := written_retimed covers rewritten
  have same := retimed_taskIndex kept
  have count : updated.stops.length = stops.length := paired.length_eq.symm
  have neighbours : ∀ k < updated.stops.length, matrix.edge k (k + 1) = edges[k]? := by
    intro k inside
    have joined := legs_positions follows.along positioned_matrixIndex (by
      rw [List.length_range']) k (by rwa [positioned_length, ← count])
    rwa [Nat.zero_add] at joined
  refine ⟨origin, departure, matrix, e, edges, home, located, timed, routed, kept, ?_, left,
    metres.trans (congrArg some follows.distance), seconds.trans (congrArg some follows.seconds)⟩
  rw [intent]
  constructor
  · exact covers.congr same
  · have named : (updated.stops.map fun stop => stop.taskIndex.toNat) =
        stops.map fun stop => stop.taskIndex.toNat := by
      have mapped := congrArg (List.map Int.toNat) same
      rwa [List.map_map, List.map_map] at mapped
    rw [named, positioned_retimed kept]
    exact evaluated
  · exact neighbours
  · apply map_eq_map_some (size.trans count.symm)
    intro k stop here
    rw [(stopAt k stop here).1, neighbours k (List.getElem?_eq_some_iff.mp here).1]
  · apply map_eq_map_some (times.1.trans (size.trans count.symm))
    intro k stop here
    exact (stopAt k stop here).2.1
  · apply map_eq_map_some (times.2.trans (size.trans count.symm))
    intro k stop here
    exact (stopAt k stop here).2.2
  · exact follows.timed
  · intro wanted occupied
    have given : stops ≠ [] := fun empty => occupied (List.eq_nil_of_length_eq_zero (by
      rw [count, empty, List.length_nil]))
    obtain ⟨node, last, point⟩ := positioned_last given
    rw [count, ← point]
    exact follows.returns.travels wanted node last
  · rintro (unwanted | empty)
    · exact follows.returns.stays (.inl unwanted)
    · apply follows.returns.stays
      right
      apply List.eq_nil_of_length_eq_zero
      rw [positioned_length, ← count, empty, List.length_nil]

theorem accepted_snapshot_well_formed_museum : ∃ updated origin departure matrix e edges home,
    recalculateAndValidateSnapshot evenProvider museumPlan museumPlan.stops none =
      .ok (updated, []) ∧
    museumPlan.origin = some origin ∧
    AcceptedStops updated.intent departure matrix updated.stops e edges home := by
  have empty : (recalculateAndValidateSnapshot evenProvider museumPlan museumPlan.stops
      none).toOption.map Prod.snd = some [] := by decide +kernel
  obtain ⟨updated, validated⟩ := answered_of_conflicts empty
  obtain ⟨origin, departure, matrix, e, edges, home, located, -, -, -, formed, -⟩ :=
    accepted_snapshot_well_formed validated
  exact ⟨updated, origin, departure, matrix, e, edges, home, validated, located, formed⟩

end MapGo.Patch
