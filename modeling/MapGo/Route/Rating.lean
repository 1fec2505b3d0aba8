import MapGo.Route.Optimize
import MapGo.Route.Simulation

/-! What a higher rating of one selected candidate changes: the rating penalty of the evaluation
and the score of the beam. Both read a rating of zero as a missing one. -/
namespace MapGo.Route

def CandidateNode.rerate (node : CandidateNode) (rating : ℚ) : CandidateNode :=
  { node with rating := some rating }

/-- The selection with another rating of one candidate. -/
def Selection.rerate (selected : Selection) (taskIndex : Nat) (rating : ℚ) : Selection :=
  Function.update selected taskIndex ((selected taskIndex).map (·.rerate rating))

/-- The states of the beam along one order. -/
def beamPath (matrix : RouteMatrix) (preferences : PlanningPreferences) (order : List Nat)
    (selected : Selection) : Option BeamState :=
  order.foldlM (fun state taskIndex =>
    (selected taskIndex).bind (extend matrix preferences state taskIndex)) ⟨[], fun _ => none, 0, 0⟩

/-- What a stop adds to the rating penalty. -/
def ratingLoss (rating : Option ℚ) : ℚ := max 0 (5 - orDefault rating 3)

def beamLoss (preferences : PlanningPreferences) (rating : Option ℚ) : ℚ :=
  match preferences.optimizationGoal with
  | .balanced => max 0 (24 / 5 - orDefault rating 3) * 180
  | _ => 0

variable {ctx : Context} {selected selected' : Selection} {walk other after : Walk} {order : List Nat}
  {taskIndex index : Nat} {node : CandidateNode} {low high : ℚ} {task : PlanningTask}
  {preferences : PlanningPreferences} {matrix : RouteMatrix}

theorem Selection.rerate_of_ne (different : index ≠ taskIndex) :
    selected.rerate taskIndex high index = selected index :=
  Function.update_of_ne different _ _

theorem Selection.rerate_self (chosen : selected taskIndex = some node) :
    selected.rerate taskIndex high taskIndex = some (node.rerate high) := by
  rw [Selection.rerate, Function.update_self, chosen]
  rfl

/-- A candidate without conflicts has none with a higher rating. -/
theorem stopConflicts_rerate {cursor : DateTime} (rated : node.rating = some low)
    (le : low ≤ high) (clear : stopConflicts ctx task node cursor = []) :
    stopConflicts ctx task (node.rerate high) cursor = [] := by
  simp only [stopConflicts, List.flatten_eq_nil_iff, List.forall_mem_cons, List.not_mem_nil,
    false_implies, implies_true, and_true] at clear ⊢
  obtain ⟨appointment, deadline, rating, others⟩ := clear
  refine ⟨appointment, deadline, ?_, others⟩
  cases wanted : task.minRating with
  | none => rfl
  | some limit =>
      simp only [wanted, rated, Option.all_some] at rating
      split at rating
      next => contradiction
      next enough =>
        apply if_neg
        simp only [CandidateNode.rerate, Option.all_some, decide_eq_true_eq, not_lt] at enough ⊢
        exact enough.trans le

/-- The walks before and after the new rating. -/
structure Walk.Rerated (walk other : Walk) : Prop where
  same : other = { walk with
    ratingPenalty := other.ratingPenalty
    selectedNodes := other.selectedNodes
    conflicts := other.conflicts }
  clear : walk.conflicts = [] → other.conflicts = []
  nodes : other.selectedNodes = [] ↔ walk.selectedNodes = []

theorem Walk.Rerated.passed {edge : RouteEdge} {rated : CandidateNode}
    (related : walk.Rerated other)
    (alike : rated = node ∨ ∃ low high, node.rating = some low ∧ low ≤ high ∧
      rated = node.rerate high) :
    (walk.passed ctx task node edge).Rerated (other.passed ctx task rated edge) := by
  have cursor : other.cursor = walk.cursor := by rw [related.same]
  constructor
  · rw [related.same]
    rcases alike with rfl | ⟨low, high, -, -, rfl⟩ <;> rfl
  · intro none
    obtain ⟨before, here⟩ := List.append_eq_nil_iff.mp none
    refine List.append_eq_nil_iff.mpr ⟨related.clear before, ?_⟩
    rw [cursor]
    rcases alike with rfl | ⟨low, high, known, le, rfl⟩
    · exact here
    · exact stopConflicts_rerate known le here
  · exact iff_of_false (List.append_ne_nil_of_right_ne_nil _ (List.cons_ne_nil _ _))
      (List.append_ne_nil_of_right_ne_nil _ (List.cons_ne_nil _ _))

/-- The candidate at a task before and after, on the same point of the matrix. -/
theorem rerate_alike (chosen : selected taskIndex = some node) (rated : node.rating = some low)
    (le : low ≤ high) {found : CandidateNode} (here : selected index = some found) :
    ∃ rated, selected.rerate taskIndex high index = some rated ∧
      rated.matrixIndex = found.matrixIndex ∧
      (rated = found ∨ ∃ low high, found.rating = some low ∧ low ≤ high ∧
        rated = found.rerate high) := by
  by_cases same : index = taskIndex
  · subst same
    obtain rfl := Option.some.inj (chosen.symm.trans here)
    exact ⟨_, Selection.rerate_self chosen, rfl, .inr ⟨low, high, rated, le, rfl⟩⟩
  · exact ⟨found, (Selection.rerate_of_ne same).trans here, rfl, .inl rfl⟩

/-- The evaluation with the new rating goes the same way. -/
theorem evaluate_rerated {e : RouteEvaluation} (chosen : selected taskIndex = some node)
    (rated : node.rating = some low) (le : low ≤ high)
    (evaluated : evaluateJointOrder ctx order selected = some e) :
    ∃ last last' : Walk, e = last.report ctx order ∧ last.Rerated last' ∧
      evaluateJointOrder ctx order (selected.rerate taskIndex high) =
        some (last'.report ctx order) := by
  have start : (Walk.start ctx order).Rerated (Walk.start ctx order) := ⟨rfl, id, Iff.rfl⟩
  have step : ∀ index ∈ order, ∀ walk other after, walk.Rerated other →
      visit ctx selected walk index = some after →
      ∃ after', visit ctx (selected.rerate taskIndex high) other index = some after' ∧
        after.Rerated after' := by
    intro index _ walk other after related visited
    obtain ⟨found, edge, task, here, travelled, present, rfl⟩ := visit_eq_some_iff.mp visited
    obtain ⟨rated, there, point, alike⟩ := rerate_alike chosen rated le here
    have previous : other.previous = walk.previous := by rw [related.same]
    refine ⟨_, visit_eq_some_iff.mpr ⟨rated, edge, task, there, ?_, present, rfl⟩,
      related.passed alike⟩
    rwa [previous, point]
  have home : ∀ walk other after, walk.Rerated other → returnToOrigin ctx walk = some after →
      ∃ after', returnToOrigin ctx other = some after' ∧ after.Rerated after' := by
    intro walk other after related returned
    have previous : other.previous = walk.previous := by rw [related.same]
    rcases returnToOrigin_eq_some_iff.mp returned with
      ⟨⟨wanted, travels⟩, edge, travelled, rfl⟩ | ⟨stays, rfl⟩
    · refine ⟨other.backHome edge, returnToOrigin_eq_some_iff.mpr
        (.inl ⟨⟨wanted, fun none => travels (related.nodes.mp none)⟩, edge, ?_, rfl⟩), ?_,
        related.clear, related.nodes⟩
      · rwa [previous]
      · rw [related.same]
        rfl
    · refine ⟨other, returnToOrigin_eq_some_iff.mpr (.inr ⟨fun both => stays ?_, rfl⟩), related⟩
      exact ⟨both.1, fun none => both.2 (related.nodes.mpr none)⟩
  exact evaluate_simulated start step home evaluated

/-- The rating penalties of the candidates along an order. -/
def ratingLosses (order : List Nat) (selected : Selection) : ℚ :=
  (order.map fun index => ((selected index).map fun node => ratingLoss node.rating).getD 0).sum

theorem visits_ratingPenalty (ran : order.foldlM (visit ctx selected) walk = some after) :
    after.ratingPenalty = walk.ratingPenalty + ratingLosses order selected := by
  induction order generalizing walk with
  | nil =>
      obtain rfl := Option.some.inj ran
      exact (add_zero _).symm
  | cons index rest ih =>
      rw [List.foldlM_cons] at ran
      obtain ⟨middle, visited, ran⟩ := Option.bind_eq_some_iff.mp ran
      obtain ⟨found, edge, task, here, -, -, rfl⟩ := visit_eq_some_iff.mp visited
      have step : (walk.passed ctx task found edge).ratingPenalty =
          walk.ratingPenalty + ratingLoss found.rating := rfl
      have losses : ratingLosses (index :: rest) selected =
          ratingLoss found.rating + ratingLosses rest selected := by
        rw [ratingLosses, List.map_cons, List.sum_cons, here]
        rfl
      rw [ih ran, step, losses, add_assoc]

/-- The weight of the rating penalty in the score. -/
def ratingWeight (preferences : PlanningPreferences) : ℚ :=
  preferences.weights.lowRating * if preferences.preferHighRating then 2 else 1

theorem ratingWeight_eq_zero_iff :
    ratingWeight preferences = 0 ↔ preferences.weights.lowRating = 0 := by
  have doubled : (if preferences.preferHighRating then 2 else 1 : ℚ) ≠ 0 := by
    split <;> norm_num
  exact mul_eq_zero.trans (or_iff_left doubled)

theorem ratingWeight_nonneg (weight : 0 ≤ preferences.weights.lowRating) :
    0 ≤ ratingWeight preferences := by
  apply mul_nonneg weight
  split <;> norm_num

theorem evaluate_lowRating {e : RouteEvaluation}
    (evaluated : evaluateJointOrder ctx order selected = some e) :
    e.score.lowRating = ratingLosses order selected * 600 * ratingWeight ctx.preferences := by
  obtain ⟨walk, after, ran, returned, rfl⟩ := evaluateJointOrder_eq_some_iff.mp evaluated
  have penalty : after.ratingPenalty = ratingLosses order selected := by
    have passed := visits_ratingPenalty ran
    rcases returnToOrigin_eq_some_iff.mp returned with ⟨-, edge, -, rfl⟩ | ⟨-, rfl⟩
    · exact passed.trans (zero_add _)
    · exact passed.trans (zero_add _)
  rw [← penalty]
  rfl

/-- Besides the rating penalty the cost is the same. -/
theorem Walk.Rerated.cost (related : walk.Rerated other) :
    (other.report ctx order).cost - (other.report ctx order).score.lowRating =
      (walk.report ctx order).cost - (walk.report ctx order).score.lowRating := by
  rw [related.same]
  simp only [Walk.report, score, softPenalties]
  ring

theorem Walk.Rerated.feasible (related : walk.Rerated other)
    (feasible : (walk.report ctx order).feasible = true) :
    (other.report ctx order).feasible = true := by
  obtain ⟨quiet, clear⟩ := List.append_eq_nil_iff.mp (List.isEmpty_iff.mp feasible)
  refine List.isEmpty_iff.mpr (List.append_eq_nil_iff.mpr ⟨related.clear quiet, ?_⟩)
  rw [related.same]
  exact clear

/-- Each visit to the task counts its new loss in place of the old one. -/
theorem ratingLosses_rerate (chosen : selected taskIndex = some node) :
    ratingLosses order (selected.rerate taskIndex high) = ratingLosses order selected +
      order.count taskIndex * (ratingLoss (some high) - ratingLoss node.rating) := by
  induction order with
  | nil => simp [ratingLosses]
  | cons index rest ih =>
      simp only [ratingLosses, List.map_cons, List.sum_cons] at ih ⊢
      by_cases same : index = taskIndex
      · subst same
        rw [ih, Selection.rerate_self chosen, chosen, List.count_cons_self]
        simp only [CandidateNode.rerate, Option.map_some, Option.getD_some]
        push_cast
        ring
      · rw [ih, Selection.rerate_of_ne same, List.count_cons_of_ne same]
        ring

/-- A higher rating loses no more, unless it takes the place of a zero below the default. -/
theorem ratingLoss_le_iff (nonneg : 0 ≤ low) (lt : low < high) (le : high ≤ 5) :
    ratingLoss (some high) ≤ ratingLoss (some low) ↔ low ≠ 0 ∨ 3 ≤ high := by
  have known : high ≠ 0 := (nonneg.trans_lt lt).ne'
  have loss : ratingLoss (some high) = 5 - high := by
    simp only [ratingLoss, orDefault, if_neg known]
    exact max_eq_right (by linarith)
  rw [loss]
  by_cases zero : low = 0
  · subst zero
    have missing : ratingLoss (some 0) = 2 := by
      simp only [ratingLoss, orDefault, if_true]
      norm_num
    rw [missing]
    simp only [ne_eq, not_true_eq_false, false_or]
    constructor <;> intro bound <;> linarith
  · have lower : ratingLoss (some low) = 5 - low := by
      simp only [ratingLoss, orDefault, if_neg zero]
      exact max_eq_right (by linarith)
    rw [lower]
    exact iff_of_true (by linarith) (.inl zero)

theorem beamLoss_le_iff (nonneg : 0 ≤ low) (lt : low < high) :
    beamLoss preferences (some high) ≤ beamLoss preferences (some low) ↔
      preferences.optimizationGoal ≠ .balanced ∨ low ≠ 0 ∨ 3 ≤ high := by
  unfold beamLoss
  cases preferences.optimizationGoal with
  | shortestTime => exact iff_of_true le_rfl (.inl nofun)
  | shortestDistance => exact iff_of_true le_rfl (.inl nofun)
  | balanced =>
      have known : high ≠ 0 := (nonneg.trans_lt lt).ne'
      simp only [orDefault, if_neg known, ne_eq, not_true_eq_false, false_or]
      by_cases zero : low = 0
      · subst zero
        simp only [if_true, not_true_eq_false, false_or]
        constructor
        · intro bound
          have least : 24 / 5 - high ≤ max 0 (24 / 5 - high) := le_max_right _ _
          have default : max (0 : ℚ) (24 / 5 - 3) = 9 / 5 := by norm_num
          rw [default] at bound
          linarith
        · intro bound
          have default : max (0 : ℚ) (24 / 5 - 3) = 9 / 5 := by norm_num
          rw [default]
          have least : max 0 (24 / 5 - high) ≤ 9 / 5 := max_le (by norm_num) (by linarith)
          linarith
      · rw [if_neg zero]
        refine iff_of_true ?_ (.inl zero)
        have least : max 0 (24 / 5 - high) ≤ max 0 (24 / 5 - low) :=
          max_le_max le_rfl (by linarith)
        linarith

theorem edgeScore_rerate (edge : RouteEdge) :
    edgeScore preferences edge (node.rerate high) = edgeScore preferences edge node +
      (beamLoss preferences (some high) - beamLoss preferences node.rating) := by
  unfold edgeScore beamLoss
  cases preferences.optimizationGoal with
  | balanced =>
      simp only [CandidateNode.rerate]
      ring
  | shortestTime => simp
  | shortestDistance => simp

/-- The states of the beam along one order, before and after the new rating. -/
structure BeamState.Rerated (taskIndex : Nat) (gap : ℚ) (state other : BeamState) : Prop where
  order : other.order = state.order
  previous : other.previous = state.previous
  score : other.score = state.score + state.order.count taskIndex * gap

theorem beamPath_rerated {state : BeamState} (chosen : selected taskIndex = some node)
    (path : beamPath matrix preferences order selected = some state) :
    ∃ other, beamPath matrix preferences order (selected.rerate taskIndex high) = some other ∧
      state.Rerated taskIndex (beamLoss preferences (some high) - beamLoss preferences node.rating)
        other := by
  refine foldlM_simulated ?_ ⟨rfl, rfl, by simp⟩ path
  intro index _ state other after related extended
  obtain ⟨found, here, extended⟩ := Option.bind_eq_some_iff.mp extended
  obtain ⟨edge, travelled, rfl⟩ := Option.map_eq_some_iff.mp extended
  have travelled' : matrix.edge other.previous found.matrixIndex = some edge :=
    related.previous ▸ travelled
  by_cases same : index = taskIndex
  · subst same
    obtain rfl := Option.some.inj (chosen.symm.trans here)
    have travelled' : matrix.edge other.previous (node.rerate high).matrixIndex = some edge :=
      travelled'
    refine ⟨_, by rw [Selection.rerate_self chosen, Option.bind_some, extend, travelled',
      Option.map_some], ?_⟩
    constructor
    · exact congrArg (· ++ [index]) related.order
    · rfl
    · dsimp only
      rw [edgeScore_rerate, related.score, List.count_append, List.count_singleton_self]
      push_cast
      ring
  · refine ⟨_, by rw [Selection.rerate_of_ne same, here, Option.bind_some, extend, travelled',
      Option.map_some], ?_⟩
    constructor
    · exact congrArg (· ++ [index]) related.order
    · rfl
    · dsimp only
      have none : [index].count taskIndex = 0 := List.count_eq_zero.mpr fun member =>
        same (List.mem_singleton.mp member).symm
      rw [related.score, List.count_append, none]
      push_cast
      ring

theorem beamPath_congr (same : ∀ index ∈ order, selected index = selected' index) :
    beamPath matrix preferences order selected = beamPath matrix preferences order selected' := by
  unfold beamPath
  generalize (⟨[], fun _ => none, 0, 0⟩ : BeamState) = start
  induction order generalizing start with
  | nil => rfl
  | cons index rest ih =>
      rw [List.foldlM_cons, List.foldlM_cons, same index List.mem_cons_self]
      congr 1
      funext state
      exact ih (fun other member => same other (List.mem_cons_of_mem _ member)) state

/-- The states of the search are those of the beam along their own orders. -/
theorem beamLayers_path {groups : List (List CandidateNode)} {constraints : HardConstraints}
    {width n : Nat} {states results : List BeamState} (layers : List Nat)
    (sound : ∀ state ∈ states, state.Sound groups n)
    (paths : ∀ state ∈ states,
      beamPath matrix preferences state.order state.selected = some state)
    (ran : layers.foldlM (fun states _ =>
      beamLayer groups matrix preferences constraints width states) states = some results) :
    ∀ state ∈ results, beamPath matrix preferences state.order state.selected = some state := by
  induction layers generalizing states n with
  | nil =>
      obtain rfl := Option.some.inj ran
      exact paths
  | cons layer rest ih =>
      rw [List.foldlM_cons] at ran
      obtain ⟨middle, first, ran⟩ := Option.bind_eq_some_iff.mp ran
      refine ih (beamLayer_sound sound first) (fun after member => ?_) ran
      obtain ⟨state, present, index, node, group, placed, inside, fresh, -, extended⟩ :=
        mem_beamLayer first member
      have unvisited : index ∉ state.order := fun visited => by
        have found := (sound state present).visited index visited
        rw [fresh] at found
        contradiction
      have step : (Function.update state.selected index (some node) index).bind
          (extend matrix preferences state index) = some after := by
        rw [Function.update_self]
        exact extended
      obtain ⟨edge, -, rfl⟩ := Option.map_eq_some_iff.mp extended
      have before : beamPath matrix preferences state.order
          (Function.update state.selected index (some node)) = some state := by
        rw [← paths state present]
        refine beamPath_congr fun other visited => Function.update_of_ne ?_ _ _
        rintro rfl
        exact unvisited visited
      unfold beamPath at before ⊢
      rw [List.foldlM_append, before]
      simp only [Option.bind_eq_bind, Option.bind_some, List.foldlM_cons, List.foldlM_nil, step]
      rfl

/-- Each order of the beam with its selection has a state along it, whose score sorts it. -/
theorem beamJoint_path {groups : List (List CandidateNode)} {constraints : HardConstraints}
    {found : List (List Nat × Selection)}
    (beam : beamJoint groups matrix preferences constraints = some found) :
    ∀ choice ∈ found, ∃ state, beamPath matrix preferences choice.1 choice.2 = some state := by
  unfold beamJoint at beam
  obtain ⟨states, ran, beam⟩ := Option.bind_eq_some_iff.mp beam
  obtain rfl := Option.some.inj beam
  intro choice member
  obtain ⟨state, present, rfl⟩ := List.mem_map.mp member
  have sound : ∀ start ∈ [(⟨[], fun _ => none, 0, 0⟩ : BeamState)], start.Sound groups 0 := by
    intro start only
    rw [List.mem_singleton.mp only]
    exact BeamState.sound_start
  refine ⟨state, beamLayers_path _ sound ?_ ran state present⟩
  · intro start only
    rw [List.mem_singleton.mp only]
    rfl

theorem beamPath_order {state : BeamState}
    (path : beamPath matrix preferences order selected = some state) : state.order = order := by
  have run (items : List Nat) (first last : BeamState)
      (ran : items.foldlM (fun state taskIndex =>
        (selected taskIndex).bind (extend matrix preferences state taskIndex)) first = some last) :
      last.order = first.order ++ items := by
    induction items generalizing first with
    | nil =>
        obtain rfl := Option.some.inj ran
        exact (List.append_nil _).symm
    | cons index rest ih =>
        rw [List.foldlM_cons] at ran
        obtain ⟨middle, extended, ran⟩ := Option.bind_eq_some_iff.mp ran
        obtain ⟨found, -, extended⟩ := Option.bind_eq_some_iff.mp extended
        obtain ⟨edge, -, rfl⟩ := Option.map_eq_some_iff.mp extended
        rw [ih _ ran, List.append_assoc]
        rfl
  exact run order _ state path

/-- A higher rating costs no more, scores no more and keeps a feasible plan feasible. -/
def RatingHelps (ctx : Context) (order : List Nat) (selected : Selection) (taskIndex : Nat)
    (rating : ℚ) (e : RouteEvaluation) (state : BeamState) : Prop :=
  ∃ better best, evaluateJointOrder ctx order (selected.rerate taskIndex rating) = some better ∧
    beamPath ctx.matrix ctx.preferences order (selected.rerate taskIndex rating) = some best ∧
    better.cost ≤ e.cost ∧ best.score ≤ state.score ∧
    (e.feasible = true → better.feasible = true)

/-- A higher rating of a selected candidate helps, unless it is below the default for missing
ratings and takes the place of a zero that some score counts. -/
theorem rating_helps_iff (ctx : Context) (order : List Nat) (selected : Selection)
    (taskIndex : Nat) (node : CandidateNode) (low high : ℚ) (e : RouteEvaluation)
    (state : BeamState) (visited : taskIndex ∈ order) (chosen : selected taskIndex = some node)
    (rated : node.rating = some low) (nonneg : 0 ≤ low) (lt : low < high) (le : high ≤ 5)
    (weight : 0 ≤ ctx.preferences.weights.lowRating)
    (evaluated : evaluateJointOrder ctx order selected = some e)
    (path : beamPath ctx.matrix ctx.preferences order selected = some state) :
    RatingHelps ctx order selected taskIndex high e state ↔ low ≠ 0 ∨ 3 ≤ high ∨
      ctx.preferences.weights.lowRating = 0 ∧ ctx.preferences.optimizationGoal ≠ .balanced := by
  obtain ⟨last, last', rfl, related, evaluated'⟩ :=
    evaluate_rerated chosen rated lt.le evaluated
  have again : ∃ other, beamPath ctx.matrix ctx.preferences order
        (selected.rerate taskIndex high) = some other ∧ state.Rerated taskIndex
          (beamLoss ctx.preferences (some high) - beamLoss ctx.preferences node.rating) other :=
    beamPath_rerated chosen path
  obtain ⟨other, path', moved⟩ := again
  have times : (0 : ℚ) < order.count taskIndex := by
    exact_mod_cast List.count_pos_iff.mpr visited
  have visits : state.order.count taskIndex = order.count taskIndex := by
    rw [beamPath_order path]
  have cost : (last'.report ctx order).cost ≤ (last.report ctx order).cost ↔
      ctx.preferences.weights.lowRating = 0 ∨ low ≠ 0 ∨ 3 ≤ high := by
    have rest : (last'.report ctx order).cost - (last'.report ctx order).score.lowRating =
        (last.report ctx order).cost - (last.report ctx order).score.lowRating := related.cost
    rw [evaluate_lowRating evaluated, evaluate_lowRating evaluated', ratingLosses_rerate chosen,
      rated] at rest
    have gap : (last'.report ctx order).cost - (last.report ctx order).cost =
        order.count taskIndex * 600 * ratingWeight ctx.preferences *
          (ratingLoss (some high) - ratingLoss (some low)) := by linarith
    rw [← ratingLoss_le_iff nonneg lt le, ← ratingWeight_eq_zero_iff]
    constructor
    · intro bound
      refine or_iff_not_imp_left.mpr fun counts => ?_
      have positive := (ratingWeight_nonneg weight).lt_of_ne' counts
      have product : order.count taskIndex * 600 * ratingWeight ctx.preferences *
          (ratingLoss (some high) - ratingLoss (some low)) ≤ 0 := by linarith
      have factor : 0 < order.count taskIndex * 600 * ratingWeight ctx.preferences := by positivity
      have := nonpos_of_mul_nonpos_right product factor
      linarith
    · rintro (free | less)
      · rw [free, mul_zero, zero_mul] at gap
        linarith
      · have factor : 0 ≤ order.count taskIndex * 600 * ratingWeight ctx.preferences :=
          mul_nonneg (by positivity) (ratingWeight_nonneg weight)
        have := mul_nonneg factor (sub_nonneg.mpr less)
        linarith
  have score : other.score ≤ state.score ↔
      ctx.preferences.optimizationGoal ≠ .balanced ∨ low ≠ 0 ∨ 3 ≤ high := by
    rw [← beamLoss_le_iff nonneg lt, moved.score, visits, rated]
    constructor
    · intro bound
      have gap : order.count taskIndex * (beamLoss ctx.preferences (some high) -
          beamLoss ctx.preferences (some low)) ≤ 0 := by linarith
      have := nonpos_of_mul_nonpos_right gap times
      linarith
    · intro bound
      have := mul_nonneg times.le (sub_nonneg.mpr bound)
      linarith
  constructor
  · rintro ⟨better, best, found, path, cheaper, shorter, -⟩
    obtain rfl := Option.some.inj (evaluated'.symm.trans found)
    obtain rfl := Option.some.inj (path'.symm.trans path)
    rcases cost.mp cheaper with free | helps
    · rcases score.mp shorter with unbalanced | helps
      · exact .inr (.inr ⟨free, unbalanced⟩)
      · exact helps.imp_right .inl
    · exact helps.imp_right .inl
  · intro helps
    refine ⟨_, other, evaluated', path', cost.mpr ?_, score.mpr ?_, related.feasible⟩
    · rcases helps with known | enough | ⟨free, -⟩
      · exact .inr (.inl known)
      · exact .inr (.inr enough)
      · exact .inl free
    · rcases helps with known | enough | ⟨-, unbalanced⟩
      · exact .inr (.inl known)
      · exact .inr (.inr enough)
      · exact .inl unbalanced

/-- The museum with a rating, visited alone. -/
def ratedMuseum (rating : ℚ) : Selection := fun _ => some (museumNode.rerate rating)

theorem rating_helps_museum : ∃ e state,
    evaluateJointOrder (museumVisit ⟨1800000000, 0⟩) [0] (ratedMuseum 3) = some e ∧
    beamPath (museumVisit ⟨1800000000, 0⟩).matrix (museumVisit ⟨1800000000, 0⟩).preferences [0]
      (ratedMuseum 3) = some state ∧
    RatingHelps (museumVisit ⟨1800000000, 0⟩) [0] (ratedMuseum 3) 0 5 e state := by
  have answered : (evaluateJointOrder (museumVisit ⟨1800000000, 0⟩) [0] (ratedMuseum 3)).isSome =
      true := by decide +kernel
  have walked : (beamPath (museumVisit ⟨1800000000, 0⟩).matrix
      (museumVisit ⟨1800000000, 0⟩).preferences [0] (ratedMuseum 3)).isSome = true := by
    decide +kernel
  obtain ⟨e, evaluated⟩ := Option.isSome_iff_exists.mp answered
  obtain ⟨state, path⟩ := Option.isSome_iff_exists.mp walked
  refine ⟨e, state, evaluated, path, (rating_helps_iff (museumVisit ⟨1800000000, 0⟩) [0]
    (ratedMuseum 3) 0 (museumNode.rerate 3) 3 5 e state List.mem_cons_self rfl rfl ?_ ?_ le_rfl ?_
    evaluated path).mpr (.inl ?_)⟩
  all_goals norm_num [museumVisit]

/-- Rated zero the museum is cheaper than rated two. -/
theorem rating_zero_preferred : ∃ e state,
    evaluateJointOrder (museumVisit ⟨1800000000, 0⟩) [0] (ratedMuseum 0) = some e ∧
    beamPath (museumVisit ⟨1800000000, 0⟩).matrix (museumVisit ⟨1800000000, 0⟩).preferences [0]
      (ratedMuseum 0) = some state ∧
    ¬ RatingHelps (museumVisit ⟨1800000000, 0⟩) [0] (ratedMuseum 0) 0 2 e state := by
  have dearer : ((evaluateJointOrder (museumVisit ⟨1800000000, 0⟩) [0] (ratedMuseum 0)).bind
      fun e => (evaluateJointOrder (museumVisit ⟨1800000000, 0⟩) [0]
        ((ratedMuseum 0).rerate 0 2)).map fun better => decide (e.cost < better.cost)) =
      some true := by decide +kernel
  have walked : (beamPath (museumVisit ⟨1800000000, 0⟩).matrix
      (museumVisit ⟨1800000000, 0⟩).preferences [0] (ratedMuseum 0)).isSome = true := by
    decide +kernel
  obtain ⟨e, evaluated, dearer⟩ := Option.bind_eq_some_iff.mp dearer
  obtain ⟨better, evaluated', dearer⟩ := Option.map_eq_some_iff.mp dearer
  obtain ⟨state, path⟩ := Option.isSome_iff_exists.mp walked
  refine ⟨e, state, evaluated, path, ?_⟩
  rintro ⟨found, -, found', -, cheaper, -⟩
  obtain rfl := Option.some.inj (evaluated'.symm.trans found')
  exact absurd cheaper (not_le.mpr (of_decide_eq_true dearer))

end MapGo.Route
