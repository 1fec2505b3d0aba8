import MapGo.Route.Soundness

/-! Two evaluations side by side. A relation between their walks that holds at the start and that
every stop and the way home keep, relates what is evaluated. -/
namespace MapGo.Route

/-- A relation that every step keeps, along two loops over the same items. -/
theorem foldlM_simulated {α σ τ : Type} {R : σ → τ → Prop} {f : σ → α → Option σ}
    {g : τ → α → Option τ} {items : List α}
    (step : ∀ item ∈ items, ∀ s t after, R s t → f s item = some after →
      ∃ after', g t item = some after' ∧ R after after')
    {s after : σ} {t : τ} (related : R s t) (ran : items.foldlM f s = some after) :
    ∃ after', items.foldlM g t = some after' ∧ R after after' := by
  induction items generalizing s t with
  | nil =>
      obtain rfl := Option.some.inj ran
      exact ⟨t, rfl, related⟩
  | cons item rest ih =>
      rw [List.foldlM_cons] at ran
      obtain ⟨middle, first, ran⟩ := Option.bind_eq_some_iff.mp ran
      obtain ⟨middle', first', related⟩ := step item List.mem_cons_self s t middle related first
      obtain ⟨after', ran', related⟩ := ih
        (fun other member => step other (List.mem_cons_of_mem _ member)) related ran
      refine ⟨after', ?_, related⟩
      rw [List.foldlM_cons, first']
      exact ran'

/-- The walk after a stop. -/
def Walk.passed (ctx : Context) (walk : Walk) (task : PlanningTask) (node : CandidateNode)
    (edge : RouteEdge) : Walk :=
  let cursor := walk.cursor.add (secondsDelta edge.durationSeconds)
  let arrived := arrival task cursor
  let left := arrived.add (minutesDelta
    (max task.serviceDurationMinutes (task.minServiceDurationMinutes.getD 0)))
  { cursor := left
    previous := node.matrixIndex
    arrivals := walk.arrivals ++ [arrived]
    departures := walk.departures ++ [left]
    conflicts := walk.conflicts ++ stopConflicts ctx task node cursor
    selectedNodes := walk.selectedNodes ++ [node]
    totalDistance := walk.totalDistance + edge.distanceMeters
    totalSeconds := walk.totalSeconds + edge.durationSeconds
    confidencePenalty := walk.confidencePenalty + (1 - min edge.confidence node.confidence)
    ratingPenalty := walk.ratingPenalty + max 0 (5 - orDefault node.rating 3)
    totalCost := walk.totalCost + node.estimatedCostYuan.getD 0
    costUnknown := walk.costUnknown || node.estimatedCostYuan.isNone
    visitedDistricts := walk.visitedDistricts ++ (node.district.filter (· ≠ "")).toList }

/-- The walk after the leg back to the origin. -/
def Walk.backHome (walk : Walk) (edge : RouteEdge) : Walk :=
  { walk with
    totalSeconds := walk.totalSeconds + edge.durationSeconds
    totalDistance := walk.totalDistance + edge.distanceMeters
    cursor := walk.cursor.add (secondsDelta edge.durationSeconds)
    confidencePenalty := walk.confidencePenalty + (1 - edge.confidence) }

/-- What is reported of a finished walk. -/
def Walk.report (ctx : Context) (order : List Nat) (walk : Walk) : RouteEvaluation where
  order := order
  selectedNodes := walk.selectedNodes
  arrivals := walk.arrivals
  departures := walk.departures
  totalDistance := walk.totalDistance
  totalTravelSeconds := walk.totalSeconds
  feasible := (walk.conflicts ++ tripConflicts ctx walk).isEmpty
  conflicts := walk.conflicts ++ tripConflicts ctx walk ++ softPenalties ctx walk
  cost := (score ctx order walk).total
  score := score ctx order walk

variable {ctx ctx' : Context} {selected selected' : Nat → Option CandidateNode}
  {walk after : Walk} {order : List Nat} {taskIndex : Nat} {e : RouteEvaluation}

/-- The arrival waits for the appointment and the earliest arrival. -/
theorem arrival_instant (task : PlanningTask) (cursor : DateTime) : (arrival task cursor).instant =
    ((task.appointmentTime.toList ++ task.earliestArrival.toList).map DateTime.instant).foldl max
      cursor.instant := by
  unfold arrival
  cases task.appointmentTime with
  | none =>
      cases task.earliestArrival with
      | none => rfl
      | some earliest => exact wait_instant cursor earliest
  | some appointment =>
      cases task.earliestArrival with
      | none => exact wait_instant cursor appointment
      | some earliest =>
          dsimp only
          rw [wait_instant, wait_instant]
          rfl

theorem visit_eq_some_iff : visit ctx selected walk taskIndex = some after ↔
    ∃ node edge task, selected taskIndex = some node ∧
      ctx.matrix.edge walk.previous node.matrixIndex = some edge ∧
      ctx.tasks[taskIndex]? = some task ∧ after = walk.passed ctx task node edge := by
  simp only [visit, bind, Option.bind_eq_some_iff, pure, Option.some.injEq]
  constructor
  · rintro ⟨node, chosen, edge, travelled, task, present, rfl⟩
    exact ⟨node, edge, task, chosen, travelled, present, rfl⟩
  · rintro ⟨node, edge, task, chosen, travelled, present, rfl⟩
    exact ⟨node, chosen, edge, travelled, task, present, rfl⟩

theorem returnToOrigin_eq_some_iff : returnToOrigin ctx walk = some after ↔
    (ctx.constraints.mustReturnToOrigin = true ∧ walk.selectedNodes ≠ []) ∧
        (∃ edge, ctx.matrix.edge walk.previous 0 = some edge ∧ after = walk.backHome edge) ∨
      ¬ (ctx.constraints.mustReturnToOrigin = true ∧ walk.selectedNodes ≠ []) ∧ after = walk := by
  unfold returnToOrigin
  split
  next travels =>
    constructor
    · intro returned
      obtain ⟨edge, found, same⟩ := Option.bind_eq_some_iff.mp returned
      exact .inl ⟨travels, edge, found, (Option.some.inj same).symm⟩
    · rintro (⟨-, edge, found, rfl⟩ | ⟨stays, -⟩)
      · rw [found]
        rfl
      · exact absurd travels stays
  next stays =>
    constructor
    · intro returned
      exact .inr ⟨stays, (Option.some.inj returned).symm⟩
    · rintro (⟨travels, -⟩ | ⟨-, rfl⟩)
      · exact absurd travels stays
      · rfl

theorem evaluateJointOrder_eq_some_iff : evaluateJointOrder ctx order selected = some e ↔
    ∃ walk after, order.foldlM (visit ctx selected) (Walk.start ctx order) = some walk ∧
      returnToOrigin ctx walk = some after ∧ e = after.report ctx order := by
  simp only [evaluateJointOrder, bind, Option.bind_eq_some_iff, pure, Option.some.injEq]
  constructor
  · rintro ⟨walk, ran, after, returned, rfl⟩
    exact ⟨walk, after, ran, returned, rfl⟩
  · rintro ⟨walk, after, ran, returned, rfl⟩
    exact ⟨walk, ran, after, returned, rfl⟩

/-- What a simulation between the walks says of the two evaluations. -/
theorem evaluate_simulated {R S : Walk → Walk → Prop}
    (start : R (Walk.start ctx order) (Walk.start ctx' order))
    (step : ∀ taskIndex ∈ order, ∀ walk other after, R walk other →
      visit ctx selected walk taskIndex = some after →
      ∃ after', visit ctx' selected' other taskIndex = some after' ∧ R after after')
    (home : ∀ walk other after, R walk other → returnToOrigin ctx walk = some after →
      ∃ after', returnToOrigin ctx' other = some after' ∧ S after after')
    (evaluated : evaluateJointOrder ctx order selected = some e) :
    ∃ last last', e = last.report ctx order ∧ S last last' ∧
      evaluateJointOrder ctx' order selected' = some (last'.report ctx' order) := by
  obtain ⟨walk, last, ran, returned, rfl⟩ := evaluateJointOrder_eq_some_iff.mp evaluated
  obtain ⟨walk', ran', related⟩ := foldlM_simulated step start ran
  obtain ⟨last', returned', related⟩ := home walk walk' last related returned
  exact ⟨last, last', rfl, related,
    evaluateJointOrder_eq_some_iff.mpr ⟨walk', last', ran', returned', rfl⟩⟩

end MapGo.Route
