import MapGo.Patch.Validate
import MapGo.Patch.Versioning

/-! What an empty conflict list of the patch validator says. The evaluator puts hard conflicts and
soft penalties in one list, and the validator hands out the whole of it. -/
namespace MapGo.Patch

open MapGo.Route

/-- Every stop has a task of its own, and no required task is left out. -/
structure CoversTasks (tasks : List PlanningTask) (stops : List Stop) : Prop where
  valid : ∀ stop ∈ stops, 0 ≤ stop.taskIndex ∧ stop.taskIndex < tasks.length
  distinct : (stops.map Stop.taskIndex).Nodup
  present : ∀ (index : Nat) (task : PlanningTask), tasks[index]? = some task → task.required = true →
    ∃ stop ∈ stops, stop.taskIndex = index

/-- The constraints that the evaluator only penalizes when it has no baseline. -/
def penalized (c : HardConstraints) : Bool :=
  c.maxDetourMeters.isSome || c.transportBudgetYuan.isSome || c.diningBudgetYuan.isSome ||
    c.ticketBudgetYuan.isSome

/-- The evaluation of the recalculated route. -/
def recalculated (provider : MapProvider) (snapshot : Snapshot) (stops : List Stop)
    (replanContext : Option ReplanContext) : Option RouteEvaluation := do
  let context := replanContext.getD {}
  let origin ← context.origin.or snapshot.origin
  let departure ← context.departureTime.or snapshot.departureTime
  let matrix ← provider.routeMatrix (origin :: stops.map fun stop => stop.poi.location)
    snapshot.intent.transportMode
  let selected := selectStops snapshot.intent.tasks.length stops
  evaluateJointOrder (validationContext snapshot.intent departure matrix) selected.order
    (selectionOf selected.nodes)

/-- The stops cover the tasks and the evaluator finds the recalculated route feasible. -/
def FeasiblePlan (provider : MapProvider) (snapshot : Snapshot) (stops : List Stop)
    (replanContext : Option ReplanContext) : Prop :=
  CoversTasks snapshot.intent.tasks stops ∧
    ∃ evaluation, recalculated provider snapshot stops replanContext = some evaluation ∧
      evaluation.feasible = true

section selecting
variable {count : Nat} {stops : List Stop} {tasks : List PlanningTask}

/-- A turn of the loop without a conflict. -/
theorem selectStop_valid {selected : Selected} {stop : Stop} {position index : Nat}
    (named : stop.taskIndex = index) (inside : index < count) (fresh : index ∉ selected.order) :
    selectStop count selected (stop, position) =
      { selected with
        order := selected.order ++ [index]
        nodes := selected.nodes ++ [candidateOf stop index position] } := by
  unfold selectStop
  dsimp only
  rw [named]
  exact if_pos ⟨inside, fresh⟩

theorem selectStop_invalid {selected : Selected} {stop : Stop} {position : Nat}
    (invalid : ¬ (0 ≤ stop.taskIndex ∧ stop.taskIndex < count ∧
      stop.taskIndex.toNat ∉ selected.order)) :
    (selectStop count selected (stop, position)).conflicts ≠ [] := by
  unfold selectStop
  dsimp only
  split
  next index named =>
    rw [if_neg]
    · simp
    · rintro ⟨inside, fresh⟩
      apply invalid
      rw [named]
      refine ⟨Int.natCast_nonneg index, ?_, fresh⟩
      exact Int.ofNat_lt.mpr inside
  next => simp

theorem conflicts_persist {selected : Selected} (found : selected.conflicts ≠ [])
    (items : List (Stop × Nat)) : (items.foldl (selectStop count) selected).conflicts ≠ [] := by
  induction items generalizing selected with
  | nil => exact found
  | cons item rest ih =>
      apply ih
      unfold selectStop
      obtain ⟨stop, position⟩ := item
      dsimp only
      split
      · split
        · exact found
        · simp
      · simp

/-- The stops are selected without a conflict where each has a task that none before it has. -/
theorem foldl_selectStop_iff (items : List (Stop × Nat)) (selected : Selected) :
    (items.foldl (selectStop count) selected).conflicts = [] ↔
      selected.conflicts = [] ∧
        (∀ item ∈ items, 0 ≤ item.1.taskIndex ∧ item.1.taskIndex < count ∧
          item.1.taskIndex.toNat ∉ selected.order) ∧
        (items.map fun item => item.1.taskIndex).Nodup := by
  induction items generalizing selected with
  | nil => simp
  | cons item rest ih =>
      obtain ⟨stop, position⟩ := item
      rw [List.foldl_cons]
      by_cases valid : 0 ≤ stop.taskIndex ∧ stop.taskIndex < count ∧
          stop.taskIndex.toNat ∉ selected.order
      · obtain ⟨nonneg, inside, fresh⟩ := valid
        obtain ⟨index, named⟩ := Int.eq_ofNat_of_zero_le nonneg
        rw [named] at inside fresh
        rw [selectStop_valid named (Int.ofNat_lt.mp inside) fresh, ih, List.map_cons,
          List.nodup_cons]
        refine and_congr_right fun _ => ?_
        constructor
        · rintro ⟨each, distinct⟩
          refine ⟨?_, ?_, distinct⟩
          · intro other member
            rcases List.mem_cons.mp member with rfl | later
            · exact ⟨nonneg, by rw [named]; exact inside, by rw [named]; exact fresh⟩
            · obtain ⟨least, most, apart⟩ := each other later
              exact ⟨least, most, fun before => apart (List.mem_append_left _ before)⟩
          · intro again
            obtain ⟨other, later, same⟩ := List.mem_map.mp again
            obtain ⟨-, -, apart⟩ := each other later
            apply apart
            rw [same, named]
            simp
        · rintro ⟨each, apart, distinct⟩
          refine ⟨?_, distinct⟩
          intro other later
          obtain ⟨least, most, before⟩ := each other (List.mem_cons_of_mem _ later)
          refine ⟨least, most, ?_⟩
          intro member
          rcases List.mem_append.mp member with old | new
          · exact before old
          · apply apart
            refine List.mem_map.mpr ⟨other, later, ?_⟩
            have equal : other.1.taskIndex.toNat = index := List.mem_singleton.mp new
            rw [named, ← equal, Int.toNat_of_nonneg least]
      · refine iff_of_false (conflicts_persist (selectStop_invalid valid) rest) ?_
        rintro ⟨-, each, -⟩
        exact valid (each _ List.mem_cons_self)

/-- Without a conflict each stop is selected for the task it names. -/
theorem foldl_selectStop_clean {items : List (Stop × Nat)} {selected : Selected}
    (clean : (items.foldl (selectStop count) selected).conflicts = []) :
    (items.foldl (selectStop count) selected).order =
        selected.order ++ items.map (fun item => item.1.taskIndex.toNat) ∧
      (items.foldl (selectStop count) selected).nodes = selected.nodes ++
        items.map fun item => candidateOf item.1 item.1.taskIndex.toNat item.2 := by
  induction items generalizing selected with
  | nil => simp
  | cons item rest ih =>
      obtain ⟨-, each, -⟩ := (foldl_selectStop_iff _ _).mp clean
      obtain ⟨nonneg, inside, fresh⟩ := each item List.mem_cons_self
      obtain ⟨stop, position⟩ := item
      obtain ⟨index, named⟩ := Int.eq_ofNat_of_zero_le nonneg
      dsimp only at named inside fresh
      rw [named] at inside fresh
      obtain ⟨order, nodes⟩ := ih clean
      rw [List.foldl_cons, order, nodes, selectStop_valid named (Int.ofNat_lt.mp inside) fresh]
      simp [named]

theorem selectStops_conflicts_iff : (selectStops count stops).conflicts = [] ↔
    (∀ stop ∈ stops, 0 ≤ stop.taskIndex ∧ stop.taskIndex < count) ∧
      (stops.map Stop.taskIndex).Nodup := by
  have numbered : ((stops.zipIdx 1).map fun item => item.1.taskIndex) =
      stops.map Stop.taskIndex := by
    change (stops.zipIdx 1).map (Stop.taskIndex ∘ Prod.fst) = _
    rw [← List.map_map, List.zipIdx_map_fst]
  rw [selectStops, foldl_selectStop_iff, numbered]
  constructor
  · rintro ⟨-, each, distinct⟩
    refine ⟨fun stop member => ?_, distinct⟩
    rw [← List.zipIdx_map_fst 1 stops] at member
    obtain ⟨item, found, rfl⟩ := List.mem_map.mp member
    obtain ⟨least, most, -⟩ := each item found
    exact ⟨least, most⟩
  · rintro ⟨each, distinct⟩
    refine ⟨rfl, fun item found => ?_, distinct⟩
    have member : item.1 ∈ stops := by
      rw [← List.zipIdx_map_fst 1 stops]
      exact List.mem_map_of_mem found
    obtain ⟨least, most⟩ := each item.1 member
    exact ⟨least, most, List.not_mem_nil⟩

theorem selectStops_order (clean : (selectStops count stops).conflicts = []) :
    (selectStops count stops).order = stops.map fun stop => stop.taskIndex.toNat := by
  rw [selectStops, (foldl_selectStop_clean clean).1]
  change [] ++ (stops.zipIdx 1).map ((fun stop : Stop => stop.taskIndex.toNat) ∘ Prod.fst) = _
  rw [← List.map_map, List.zipIdx_map_fst, List.nil_append]

theorem requiredMissing_eq_nil_iff {order : List Nat} : requiredMissing tasks order = [] ↔
    ∀ (index : Nat) (task : PlanningTask), tasks[index]? = some task → task.required = true →
      index ∈ order := by
  rw [requiredMissing, List.map_eq_nil_iff, List.filter_eq_nil_iff]
  constructor
  · intro none index task found required
    by_contra missing
    apply none (task, index)
    · exact List.mem_zipIdx_iff_getElem?.mpr found
    · simp [required, missing]
  · rintro each ⟨task, index⟩ member
    have found : tasks[index]? = some task := List.mem_zipIdx_iff_getElem?.mp member
    simpa using each index task found

/-- The structural checks find nothing exactly where the stops cover the tasks. -/
theorem identityConflicts_eq_nil_iff :
    identityConflicts tasks (selectStops tasks.length stops) = [] ↔ CoversTasks tasks stops := by
  have split : identityConflicts tasks (selectStops tasks.length stops) = [] ↔
      (selectStops tasks.length stops).conflicts = [] ∧
        requiredMissing tasks (selectStops tasks.length stops).order = [] := by
    rw [identityConflicts, List.append_eq_nil_iff]
    refine and_congr_right fun _ => ?_
    split
    · simpa
    · simpa
  rw [split]
  constructor
  · rintro ⟨clean, complete⟩
    obtain ⟨valid, distinct⟩ := selectStops_conflicts_iff.mp clean
    rw [selectStops_order clean, requiredMissing_eq_nil_iff] at complete
    refine ⟨valid, distinct, fun index task found required => ?_⟩
    obtain ⟨stop, member, same⟩ := List.mem_map.mp (complete index task found required)
    have nonneg := (valid stop member).1
    exact ⟨stop, member, by omega⟩
  · intro covers
    have clean := selectStops_conflicts_iff.mpr ⟨covers.valid, covers.distinct⟩
    refine ⟨clean, ?_⟩
    rw [selectStops_order clean, requiredMissing_eq_nil_iff]
    intro index task found required
    obtain ⟨stop, member, same⟩ := covers.present index task found required
    exact List.mem_map.mpr ⟨stop, member, by omega⟩

end selecting

theorem softPenalties_eq_nil_iff {ctx : Context} {walk : Walk}
    (unbased : ctx.baselineDistanceMeters = none) :
    softPenalties ctx walk = [] ↔ penalized ctx.constraints = false := by
  rw [softPenalties, List.append_eq_nil_iff, penalized, unbased]
  cases ctx.constraints.maxDetourMeters <;> cases ctx.constraints.transportBudgetYuan <;>
    cases ctx.constraints.diningBudgetYuan <;> cases ctx.constraints.ticketBudgetYuan <;> simp

/-- Without a baseline the evaluator's list is empty where the route is feasible and nothing is
penalized. -/
theorem conflicts_eq_nil_iff {ctx : Context} {order : List Nat} {selected : Selection}
    {evaluation : RouteEvaluation} (unbased : ctx.baselineDistanceMeters = none)
    (evaluated : evaluateJointOrder ctx order selected = some evaluation) :
    evaluation.conflicts = [] ↔
      evaluation.feasible = true ∧ penalized ctx.constraints = false := by
  simp only [evaluateJointOrder, bind, Option.bind_eq_some_iff, pure, Option.some.injEq] at evaluated
  obtain ⟨walk, -, returned, -, rfl⟩ := evaluated
  rw [List.append_eq_nil_iff, softPenalties_eq_nil_iff unbased, List.isEmpty_iff]

/-- What the validator hands out after a run without an exception. -/
theorem recalculateAndValidateSnapshot_spec {provider : MapProvider} {snapshot updated : Snapshot}
    {stops : List Stop} {replanContext : Option ReplanContext} {conflicts : List String}
    (validated : recalculateAndValidateSnapshot provider snapshot stops replanContext =
      .ok (updated, conflicts)) :
    (¬ CoversTasks snapshot.intent.tasks stops ∧ conflicts ≠ []) ∨
      CoversTasks snapshot.intent.tasks stops ∧ ∃ evaluation,
        recalculated provider snapshot stops replanContext = some evaluation ∧
          (conflicts = [] ↔
            evaluation.feasible = true ∧ penalized snapshot.intent.hard = false) := by
  unfold recalculateAndValidateSnapshot at validated
  dsimp only at validated
  split at validated
  next origin departure located timed =>
    obtain ⟨matrix, answered, checked⟩ := bind_eq_ok.mp validated
    have routed := orRaise_eq_ok.mp answered
    split at checked
    next found =>
      cases checked
      exact .inl ⟨fun covers => found (identityConflicts_eq_nil_iff.mpr covers), found⟩
    next clean =>
      obtain ⟨evaluation, evaluated, retimed⟩ := bind_eq_ok.mp checked
      have evaluates := orRaise_eq_ok.mp evaluated
      obtain ⟨written, -, same⟩ := bind_eq_ok.mp retimed
      cases same
      refine .inr ⟨identityConflicts_eq_nil_iff.mp (not_not.mp clean), evaluation, ?_, ?_⟩
      · simp only [recalculated, located, timed, routed, bind, Option.bind_some]
        exact evaluates
      · rw [List.map_eq_nil_iff]
        exact conflicts_eq_nil_iff rfl evaluates
  next => contradiction

/-- The validator accepts exactly the feasible plans, except those with a constraint that is only
penalized: a feasible one of these it rejects. -/
theorem validator_exact_iff {provider : MapProvider} {snapshot updated : Snapshot}
    {stops : List Stop} {replanContext : Option ReplanContext} {conflicts : List String}
    (validated : recalculateAndValidateSnapshot provider snapshot stops replanContext =
      .ok (updated, conflicts)) :
    (conflicts = [] ↔ FeasiblePlan provider snapshot stops replanContext) ↔
      (penalized snapshot.intent.hard = true →
        ¬ FeasiblePlan provider snapshot stops replanContext) := by
  rcases recalculateAndValidateSnapshot_spec validated with
    ⟨uncovered, found⟩ | ⟨covers, evaluation, evaluated, empty⟩
  · have infeasible : ¬ FeasiblePlan provider snapshot stops replanContext :=
      fun feasible => uncovered feasible.1
    exact iff_of_true (iff_of_false found infeasible) fun _ => infeasible
  · have feasible : FeasiblePlan provider snapshot stops replanContext ↔
        evaluation.feasible = true := by
      constructor
      · rintro ⟨-, other, same, passes⟩
        rw [evaluated] at same
        cases same
        exact passes
      · intro passes
        exact ⟨covers, evaluation, evaluated, passes⟩
    rw [feasible, empty]
    cases penalized snapshot.intent.hard <;> cases evaluation.feasible <;> simp

theorem answered_of_conflicts {result : Except Failure (Snapshot × List String)}
    {conflicts : List String} (found : result.toOption.map Prod.snd = some conflicts) :
    ∃ updated, result = .ok (updated, conflicts) := by
  cases result with
  | error => contradiction
  | ok value =>
      cases found
      exact ⟨value.1, rfl⟩

theorem validator_exact_iff_museum : ∃ updated conflicts,
    recalculateAndValidateSnapshot evenProvider museumPlan museumPlan.stops none =
      .ok (updated, conflicts) ∧
    (conflicts = [] ↔ FeasiblePlan evenProvider museumPlan museumPlan.stops none) := by
  have empty : (recalculateAndValidateSnapshot evenProvider museumPlan museumPlan.stops
      none).toOption.map Prod.snd = some [] := by decide +kernel
  obtain ⟨updated, validated⟩ := answered_of_conflicts empty
  exact ⟨updated, [], validated, (validator_exact_iff validated).mpr fun limited =>
    absurd limited (by decide)⟩

/-- The museum plan of a user who allows at most one kilometre of detour. -/
def detourLimited : Snapshot :=
  { museumPlan with
    intent := { museumPlan.intent with hard := { museumPlan.intent.hard with
      maxDetourMeters := some 1000 } } }

/-- The route is feasible, and the validator reports the limit that it could not check. -/
theorem penalty_blocks_patch :
    FeasiblePlan evenProvider detourLimited detourLimited.stops none ∧ ∃ updated,
      recalculateAndValidateSnapshot evenProvider detourLimited detourLimited.stops none =
        .ok (updated, ["缺少无绕行基准路线，最大绕行按软约束惩罚处理"]) := by
  have reported : (recalculateAndValidateSnapshot evenProvider detourLimited detourLimited.stops
      none).toOption.map Prod.snd =
        some ["缺少无绕行基准路线，最大绕行按软约束惩罚处理"] := by decide +kernel
  have passes : (recalculated evenProvider detourLimited detourLimited.stops none).map
      RouteEvaluation.feasible = some true := by decide +kernel
  have clean : identityConflicts detourLimited.intent.tasks
      (selectStops detourLimited.intent.tasks.length detourLimited.stops) = [] := by decide +kernel
  obtain ⟨evaluation, evaluated, feasible⟩ := Option.map_eq_some_iff.mp passes
  exact ⟨⟨identityConflicts_eq_nil_iff.mp clean, evaluation, evaluated, feasible⟩,
    answered_of_conflicts reported⟩

end MapGo.Patch
