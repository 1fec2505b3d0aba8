import MapGo.Route.Simulation

/-! Monotonicity of the timeline. A later departure or slower edges put no stop earlier, and a
smaller safety buffer brings no new conflict. -/
namespace MapGo.Route

def NoLater (first second : DateTime) : Prop := first.instant ≤ second.instant

/-- Stop by stop, the times of the second evaluation are no earlier. -/
structure RouteEvaluation.NoLater (e later : RouteEvaluation) : Prop where
  arrivals : List.Forall₂ Route.NoLater e.arrivals later.arrivals
  departures : List.Forall₂ Route.NoLater e.departures later.departures

/-- Every edge takes at least as long in the second matrix. -/
def RouteMatrix.Slower (matrix slower : RouteMatrix) : Prop :=
  ∀ i j edge, matrix.edge i j = some edge →
    ∃ longer, slower.edge i j = some longer ∧ edge.durationSeconds ≤ longer.durationSeconds

variable {ctx slow : Context} {selected : Nat → Option CandidateNode} {walk later after : Walk}
  {order : List Nat} {taskIndex : Nat} {e : RouteEvaluation} {task : PlanningTask}
  {node : CandidateNode}

theorem RouteMatrix.slower_refl (matrix : RouteMatrix) : matrix.Slower matrix :=
  fun _ _ edge found => ⟨edge, found, le_rfl⟩

theorem arrival_mono (task : PlanningTask) {cursor cursor' : DateTime}
    (le : cursor.instant ≤ cursor'.instant) :
    (arrival task cursor).instant ≤ (arrival task cursor').instant := by
  have waits (openings : List Instant) {t t' : Instant} (le : t ≤ t') :
      openings.foldl max t ≤ openings.foldl max t' := by
    induction openings generalizing t t' with
    | nil => exact le
    | cons opening rest ih => exact ih (max_le_max le le_rfl)
  rw [arrival_instant, arrival_instant]
  exact waits _ le

/-- Two walks along one order, the second no earlier. -/
structure Walk.NoLater (walk later : Walk) : Prop where
  cursor : walk.cursor.instant ≤ later.cursor.instant
  previous : walk.previous = later.previous
  selectedNodes : walk.selectedNodes = later.selectedNodes
  arrivals : List.Forall₂ Route.NoLater walk.arrivals later.arrivals
  departures : List.Forall₂ Route.NoLater walk.departures later.departures

/-- One stop later, the second walk is still no earlier. -/
theorem Walk.NoLater.passed {edge longer : RouteEdge} (behind : walk.NoLater later)
    (le : edge.durationSeconds ≤ longer.durationSeconds) :
    (walk.passed ctx task node edge).NoLater (later.passed slow task node longer) := by
  have reached : (walk.cursor.add (secondsDelta edge.durationSeconds)).instant ≤
      (later.cursor.add (secondsDelta longer.durationSeconds)).instant :=
    add_le_add behind.cursor (secondsDelta_mono le)
  have arrived := arrival_mono task reached
  constructor
  · exact add_le_add arrived le_rfl
  · rfl
  · exact congrArg (· ++ [node]) behind.selectedNodes
  · exact List.rel_append behind.arrivals (.cons arrived .nil)
  · exact List.rel_append behind.departures (.cons (add_le_add arrived le_rfl) .nil)

/-- The evaluation of a later or slower trip. -/
theorem evaluate_noLater (evaluated : evaluateJointOrder ctx order selected = some e)
    (departs : ctx.departure.instant ≤ slow.departure.instant) (tasks : slow.tasks = ctx.tasks)
    (constraints : slow.constraints = ctx.constraints)
    (slower : ctx.matrix.Slower slow.matrix) :
    ∃ later, evaluateJointOrder slow order selected = some later ∧ e.NoLater later := by
  have start : (Walk.start ctx order).NoLater (Walk.start slow order) :=
    ⟨departs, rfl, rfl, .nil, .nil⟩
  have step : ∀ taskIndex ∈ order, ∀ walk later after, walk.NoLater later →
      visit ctx selected walk taskIndex = some after →
      ∃ after', visit slow selected later taskIndex = some after' ∧ after.NoLater after' := by
    intro taskIndex _ walk later after behind visited
    obtain ⟨node, edge, task, chosen, travelled, present, rfl⟩ := visit_eq_some_iff.mp visited
    obtain ⟨longer, found, le⟩ := slower _ _ edge travelled
    refine ⟨later.passed slow task node longer, visit_eq_some_iff.mpr ?_, behind.passed le⟩
    rw [behind.previous] at found
    exact ⟨node, longer, task, chosen, found, tasks ▸ present, rfl⟩
  have home : ∀ walk later after, walk.NoLater later → returnToOrigin ctx walk = some after →
      ∃ after', returnToOrigin slow later = some after' ∧
        List.Forall₂ NoLater after.arrivals after'.arrivals ∧
        List.Forall₂ NoLater after.departures after'.departures := by
    intro walk later after behind returned
    rcases returnToOrigin_eq_some_iff.mp returned with
      ⟨travels, edge, travelled, rfl⟩ | ⟨stays, rfl⟩
    · obtain ⟨longer, found, -⟩ := slower _ _ edge travelled
      refine ⟨later.backHome longer, returnToOrigin_eq_some_iff.mpr (.inl ⟨?_, longer, ?_, rfl⟩),
        behind.arrivals, behind.departures⟩
      · rwa [constraints, ← behind.selectedNodes]
      · rwa [← behind.previous]
    · refine ⟨later, returnToOrigin_eq_some_iff.mpr (.inr ⟨?_, rfl⟩), behind.arrivals,
        behind.departures⟩
      rwa [constraints, ← behind.selectedNodes]
  obtain ⟨last, last', rfl, behind, evaluated'⟩ := evaluate_simulated start step home evaluated
  exact ⟨_, evaluated', behind.1, behind.2⟩

/-- The same context with another safety buffer. -/
def Context.withBuffer (ctx : Context) (minutes : Int) : Context :=
  { ctx with safetyBufferMinutes := minutes.toNat }

section buffers
variable {b b' : Int} {cursor : DateTime}

theorem buffer_mono (ctx : Context) (le : b' ≤ b) :
    (ctx.withBuffer b').buffer ≤ (ctx.withBuffer b).buffer := by
  simp only [Context.withBuffer, Context.buffer, minutesDelta]
  omega

/-- What is in time for a limit with a buffer is in time with a smaller one. -/
theorem inTime_mono (ctx : Context) (le : b' ≤ b) {limit time : DateTime}
    (inside : ¬ (limit.sub (ctx.withBuffer b).buffer).instant < time.instant) :
    ¬ (limit.sub (ctx.withBuffer b').buffer).instant < time.instant := by
  have smaller := buffer_mono ctx le
  simp only [DateTime.sub, not_lt] at inside ⊢
  linarith

theorem stopConflicts_clear_mono (le : b' ≤ b)
    (clear : stopConflicts (ctx.withBuffer b) task node cursor = []) :
    stopConflicts (ctx.withBuffer b') task node cursor = [] := by
  simp only [stopConflicts, List.flatten_eq_nil_iff, List.forall_mem_cons, List.not_mem_nil,
    false_implies, implies_true, and_true] at clear ⊢
  obtain ⟨appointment, deadline, others⟩ := clear
  refine ⟨appointment, ?_, others⟩
  cases due : task.deadline with
  | none => rfl
  | some limit =>
      simp only [due] at deadline
      split at deadline
      next => contradiction
      next inside => exact if_neg (inTime_mono ctx le inside)

theorem tripConflicts_clear_mono (le : b' ≤ b)
    (clear : tripConflicts (ctx.withBuffer b) walk = []) :
    tripConflicts (ctx.withBuffer b') walk = [] := by
  simp only [tripConflicts, List.flatten_eq_nil_iff, List.forall_mem_cons, List.not_mem_nil,
    false_implies, implies_true, and_true] at clear ⊢
  obtain ⟨duration, latest, others⟩ := clear
  refine ⟨duration, ?_, others⟩
  have same : (ctx.withBuffer b').constraints = (ctx.withBuffer b).constraints := rfl
  rw [same]
  cases home : (ctx.withBuffer b).constraints.latestReturnTime with
  | none => rfl
  | some limit =>
      rw [home] at latest
      dsimp only at latest ⊢
      split at latest
      next => contradiction
      next inside => exact if_neg (inTime_mono ctx le inside)

/-- Two walks that differ in their conflicts alone, and not where the first has none. -/
structure Walk.Relaxed (walk relaxed : Walk) : Prop where
  same : relaxed = { walk with conflicts := relaxed.conflicts }
  clear : walk.conflicts = [] → relaxed.conflicts = []

theorem Walk.Relaxed.passed {relaxed : Walk} {edge : RouteEdge} (le : b' ≤ b)
    (eased : walk.Relaxed relaxed) :
    (walk.passed (ctx.withBuffer b) task node edge).Relaxed
      (relaxed.passed (ctx.withBuffer b') task node edge) := by
  constructor
  · rw [eased.same]
    rfl
  · intro none
    obtain ⟨before, here⟩ := List.append_eq_nil_iff.mp none
    have cursor : relaxed.cursor = walk.cursor := by rw [eased.same]
    refine List.append_eq_nil_iff.mpr ⟨eased.clear before, ?_⟩
    rw [cursor]
    exact stopConflicts_clear_mono le here

/-- What is feasible with a safety buffer is feasible with a smaller one. -/
theorem evaluate_relaxed (le : b' ≤ b)
    (evaluated : evaluateJointOrder (ctx.withBuffer b) order selected = some e)
    (feasible : e.feasible = true) :
    ∃ relaxed, evaluateJointOrder (ctx.withBuffer b') order selected = some relaxed ∧
      relaxed.feasible = true := by
  have step : ∀ taskIndex ∈ order, ∀ walk relaxed after, walk.Relaxed relaxed →
      visit (ctx.withBuffer b) selected walk taskIndex = some after →
      ∃ after', visit (ctx.withBuffer b') selected relaxed taskIndex = some after' ∧
        after.Relaxed after' := by
    intro taskIndex _ walk relaxed after eased visited
    obtain ⟨node, edge, task, chosen, travelled, present, rfl⟩ := visit_eq_some_iff.mp visited
    have previous : relaxed.previous = walk.previous := by rw [eased.same]
    refine ⟨_, visit_eq_some_iff.mpr ⟨node, edge, task, chosen, ?_, present, rfl⟩,
      eased.passed le⟩
    rw [previous]
    exact travelled
  have home : ∀ walk relaxed after, walk.Relaxed relaxed →
      returnToOrigin (ctx.withBuffer b) walk = some after →
      ∃ after', returnToOrigin (ctx.withBuffer b') relaxed = some after' ∧
        after.Relaxed after' := by
    intro walk relaxed after eased returned
    have previous : relaxed.previous = walk.previous := by rw [eased.same]
    have nodes : relaxed.selectedNodes = walk.selectedNodes := by rw [eased.same]
    rcases returnToOrigin_eq_some_iff.mp returned with
      ⟨travels, edge, travelled, rfl⟩ | ⟨stays, rfl⟩
    · refine ⟨relaxed.backHome edge, returnToOrigin_eq_some_iff.mpr
        (.inl ⟨nodes ▸ travels, edge, previous ▸ travelled, rfl⟩), ?_, eased.clear⟩
      rw [eased.same]
      rfl
    · exact ⟨relaxed, returnToOrigin_eq_some_iff.mpr (.inr ⟨nodes ▸ stays, rfl⟩), eased⟩
  have start : (Walk.start (ctx.withBuffer b) order).Relaxed
      (Walk.start (ctx.withBuffer b') order) := ⟨rfl, id⟩
  obtain ⟨last, last', rfl, eased, evaluated'⟩ := evaluate_simulated start step home evaluated
  refine ⟨_, evaluated', ?_⟩
  obtain ⟨quiet, clear⟩ := List.append_eq_nil_iff.mp (List.isEmpty_iff.mp feasible)
  have same : tripConflicts (ctx.withBuffer b') last' =
      tripConflicts (ctx.withBuffer b') last := by
    rw [eased.same]
    rfl
  refine List.isEmpty_iff.mpr (List.append_eq_nil_iff.mpr ⟨eased.clear quiet, ?_⟩)
  rw [same]
  exact tripConflicts_clear_mono le clear

end buffers

/-- A later departure and slower edges put no stop earlier; a smaller safety buffer keeps a
feasible plan feasible. -/
theorem timing_monotone (ctx : Context) (order : List Nat)
    (selected : Nat → Option CandidateNode) :
    (∀ departure departure' : DateTime, departure.instant ≤ departure'.instant →
      ∀ e, evaluateJointOrder { ctx with departure := departure } order selected = some e →
        ∃ later, evaluateJointOrder { ctx with departure := departure' } order selected =
          some later ∧ e.NoLater later) ∧
    (∀ matrix slower : RouteMatrix, matrix.Slower slower →
      ∀ e, evaluateJointOrder { ctx with matrix := matrix } order selected = some e →
        ∃ later, evaluateJointOrder { ctx with matrix := slower } order selected = some later ∧
          e.NoLater later) ∧
    (∀ b b' : Int, b' ≤ b → ∀ e, evaluateJointOrder (ctx.withBuffer b) order selected = some e →
      e.feasible = true → ∃ relaxed,
        evaluateJointOrder (ctx.withBuffer b') order selected = some relaxed ∧
          relaxed.feasible = true) := by
  refine ⟨?_, ?_, ?_⟩
  · intro departure departure' departs e evaluated
    exact evaluate_noLater evaluated departs rfl rfl (RouteMatrix.slower_refl _)
  · intro matrix slower slows e evaluated
    exact evaluate_noLater evaluated le_rfl rfl rfl slows
  · intro b b' le e evaluated feasible
    exact evaluate_relaxed le evaluated feasible

theorem timing_monotone_museum : ∃ e later relaxed,
    museumEvaluation ⟨1800000000, 0⟩ = some e ∧
    evaluateJointOrder { museumVisit ⟨1800000000, 0⟩ with departure := ⟨3000000000, 0⟩ } [0]
      (fun _ => some museumNode) = some later ∧ e.NoLater later ∧
    evaluateJointOrder ((museumVisit ⟨1800000000, 0⟩).withBuffer 5) [0]
      (fun _ => some museumNode) = some relaxed ∧ relaxed.feasible = true := by
  have answered : (museumEvaluation ⟨1800000000, 0⟩).isSome = true := by decide +kernel
  obtain ⟨e, evaluated⟩ := Option.isSome_iff_exists.mp answered
  have buffered : (evaluateJointOrder ((museumVisit ⟨1800000000, 0⟩).withBuffer 10) [0]
      fun _ => some museumNode).any (fun e => e.feasible) = true := by decide +kernel
  obtain ⟨careful, judged, feasible⟩ := (Option.any_eq_true ..).mp buffered
  obtain ⟨departs, -, relaxes⟩ := timing_monotone (museumVisit ⟨1800000000, 0⟩) [0]
    fun _ => some museumNode
  obtain ⟨later, evaluated', behind⟩ := departs ⟨0, 0⟩ ⟨3000000000, 0⟩ (by decide) e evaluated
  obtain ⟨relaxed, judged', eased⟩ := relaxes 10 5 (by decide) careful judged feasible
  exact ⟨e, later, relaxed, evaluated, evaluated', behind, judged', eased⟩

end MapGo.Route
