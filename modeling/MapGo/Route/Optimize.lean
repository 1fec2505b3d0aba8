import MapGo.Route.Evaluate

/-! Joint choice of candidates and order: exact enumeration for small searches,
otherwise the routing solver with a beam search behind it. The solver is a
parameter; it either gives up or returns an order with the selected candidates.
The best evaluation is the first with the least key. -/
namespace MapGo.Route

abbrev Selection := Nat → Option CandidateNode

/-- `_ortools_joint` -/
abbrev RoutingSolver := DateTime → List PlanningTask → List (List CandidateNode) → RouteMatrix →
  PlanningPreferences → HardConstraints → Option (List Nat × Selection)

/-- `itertools.product(*groups)` -/
def product : List (List α) → List (List α)
  | [] => [[]]
  | group :: rest => group.flatMap fun item => (product rest).map (item :: ·)

/-- `itertools.permutations` of distinct items, in its order. -/
def orderings : Nat → List Nat → List (List Nat)
  | 0, _ => [[]]
  | n + 1, items => items.flatMap fun first => (orderings n (items.erase first)).map (first :: ·)

/-- `{node.task_index: node for node in selection}` -/
def selectionOf (selection : List CandidateNode) : Selection := fun taskIndex =>
  selection.reverse.find? (fun node => node.taskIndex = taskIndex)

/-- `_evaluation_key`, compared lexicographically. -/
def evaluationKey (preferences : PlanningPreferences) (item : RouteEvaluation) : List ℚ :=
  [if item.feasible then 0 else 1, (item.conflicts.length : ℚ)] ++
    match preferences.optimizationGoal with
    | .shortestTime => [item.totalTravelSeconds, item.totalDistance, item.cost]
    | .shortestDistance => [item.totalDistance, item.totalTravelSeconds, item.cost]
    | .balanced => [item.cost, item.totalDistance, item.totalTravelSeconds]

/-- `min(evaluations, key=...)`: the first least element. -/
def best (preferences : PlanningPreferences) : List RouteEvaluation → Option RouteEvaluation
  | [] => none
  | first :: rest => some (rest.foldl (fun kept item =>
      if evaluationKey preferences item < evaluationKey preferences kept then item else kept) first)

/-- `_task_order_allowed` -/
def taskOrderAllowed (chosen : List Nat) (taskIndex : Nat) (required : List Int) : Bool :=
  if (taskIndex : Int) ∈ required then
    required.idxOf (taskIndex : Int) = (chosen.filter fun item => (item : Int) ∈ required).length
  else true

structure BeamState where
  order : List Nat
  selected : Selection
  previous : Nat
  score : ℚ

/-- The cheap cost of going on to a candidate. -/
def edgeScore (preferences : PlanningPreferences) (edge : RouteEdge) (node : CandidateNode) : ℚ :=
  match preferences.optimizationGoal with
  | .shortestDistance => edge.distanceMeters
  | .shortestTime => edge.durationSeconds
  | .balanced => edge.durationSeconds + (1 - min edge.confidence node.confidence) * 600 +
      max 0 (24 / 5 - orDefault node.rating 3) * 180 + node.estimatedCostYuan.getD 0 * 60

def extend (matrix : RouteMatrix) (preferences : PlanningPreferences) (state : BeamState)
    (taskIndex : Nat) (node : CandidateNode) : Option BeamState :=
  (matrix.edge state.previous node.matrixIndex).map fun edge =>
    { order := state.order ++ [taskIndex]
      selected := Function.update state.selected taskIndex (some node)
      previous := node.matrixIndex
      score := state.score + edgeScore preferences edge node }

/-- One layer of `_beam_joint`: every allowed continuation of every state, then the cheapest. -/
def beamLayer (groups : List (List CandidateNode)) (matrix : RouteMatrix)
    (preferences : PlanningPreferences) (constraints : HardConstraints) (beamWidth : Nat)
    (states : List BeamState) : Option (List BeamState) := do
  let expanded ← (states.flatMap fun state =>
    groups.zipIdx.flatMap fun (group, taskIndex) =>
      if (state.selected taskIndex).isSome ∨
          ¬ taskOrderAllowed state.order taskIndex constraints.requiredTaskOrder then []
      else group.map fun node => (state, taskIndex, node)).mapM
    fun (state, taskIndex, node) => extend matrix preferences state taskIndex node
  return (expanded.insertionSort fun a b => a.score ≤ b.score).take beamWidth

def beamJoint (groups : List (List CandidateNode)) (matrix : RouteMatrix)
    (preferences : PlanningPreferences) (constraints : HardConstraints) :
    Option (List (List Nat × Selection)) := do
  let states ← (List.range groups.length).foldlM
    (fun states _ => beamLayer groups matrix preferences constraints 250 states)
    [⟨[], fun _ => none, 0, 0⟩]
  return states.map fun state => (state.order, state.selected)

/-- The route through the first candidate of every group, in the order of the tasks. -/
def baselineDistance (groups : List (List CandidateNode)) (matrix : RouteMatrix) : Option ℚ := do
  let (distance, _) ← (groups.filterMap List.head?).foldlM
    (fun (distance, cursor) node => do
      let edge ← matrix.edge cursor node.matrixIndex
      return (distance + edge.distanceMeters, node.matrixIndex))
    ((0 : ℚ), (0 : Nat))
  return distance

/-- Small searches are enumerated. -/
def isExact (groups : List (List CandidateNode)) (count : Nat) : Bool :=
  count ≤ 6 ∧ (groups.map List.length).prod * max 1 count.factorial ≤ 60000

/-- The candidates of the larger searches with the algorithm that found them. -/
def searchLarge (solver : RoutingSolver) (departure : DateTime) (tasks : List PlanningTask)
    (groups : List (List CandidateNode)) (matrix : RouteMatrix) (preferences : PlanningPreferences)
    (constraints : HardConstraints) : Option (List (List Nat × Selection) × String) :=
  let required := constraints.requiredTaskOrder
  let fixedUserOrder := required.length = tasks.length ∧
    (∀ item ∈ required, item ∈ (List.range tasks.length).map Int.ofNat) ∧
    ∀ index ∈ List.range tasks.length, Int.ofNat index ∈ required
  let solution := if fixedUserOrder then none
    else solver departure tasks groups matrix preferences constraints
  match solution with
  | some found =>
      let algorithm := match preferences.optimizationGoal with
        | .balanced => "ortools-routing-time-windows"
        | .shortestTime => "ortools-routing-shortest-time"
        | .shortestDistance => "ortools-routing-shortest-distance"
      some ([found], algorithm)
  | none => do
      let found ← beamJoint groups matrix preferences constraints
      return (found, if fixedUserOrder then "ordered-layered-beam" else "joint-beam-search-fallback")

/-- The orders and selections that are evaluated, with the name of the search. -/
def searched (solver : RoutingSolver) (ctx : Context) (groups : List (List CandidateNode)) :
    Option (List (List Nat × Selection) × String) :=
  let count := ctx.tasks.length
  if isExact groups count then
    some ((product groups).flatMap fun selection =>
      (orderings count (List.range count)).map fun order => (order, selectionOf selection),
      "joint-exact-enumeration")
  else
    searchLarge solver ctx.departure ctx.tasks groups ctx.matrix ctx.preferences ctx.constraints

def optimizeJointRoute (solver : RoutingSolver) (departure : DateTime) (tasks : List PlanningTask)
    (groups : List (List CandidateNode)) (matrix : RouteMatrix) (preferences : PlanningPreferences)
    (constraints : HardConstraints) (mode : TransportMode) (safetyBufferMinutes : Nat)
    (previousOrder : List Nat) : Option (RouteEvaluation × String) := do
  let baseline ← baselineDistance groups matrix
  let ctx : Context :=
    { departure, tasks, matrix, preferences, constraints, mode, safetyBufferMinutes
      previousOrder, baselineDistanceMeters := some baseline }
  let (found, algorithm) ← searched solver ctx groups
  let evaluations ← found.mapM fun (order, selected) => evaluateJointOrder ctx order selected
  let evaluation ← best preferences evaluations
  return (evaluation, algorithm)

/-- The candidate of a task in `optimize_route`. -/
def singleNode (taskIndex : Nat) : CandidateNode where
  taskIndex := taskIndex
  candidateRank := 0
  matrixIndex := taskIndex + 1
  rating := none
  confidence := 1 / 2

/-- The distances and durations of a matrix as compatibility edges. -/
def compatibilityMatrix (matrix : RouteMatrix) : RouteMatrix :=
  ⟨matrix.edges.map (·.map fun edge => { edge with confidence := 1 / 2 })⟩

def optimizeRoute (solver : RoutingSolver) (departure : DateTime) (tasks : List PlanningTask)
    (matrix : RouteMatrix) : Option (RouteEvaluation × String) :=
  optimizeJointRoute solver departure tasks ((List.range tasks.length).map fun i => [singleNode i])
    (compatibilityMatrix matrix) {} {} .walking 0 []

/-- The solver's answers are complete tours over candidates of the groups. -/
def RoutingSolver.Complete (solver : RoutingSolver) : Prop :=
  ∀ departure tasks groups matrix preferences constraints order selected,
    solver departure tasks groups matrix preferences constraints = some (order, selected) →
    order.Perm (List.range groups.length) ∧
      ∀ taskIndex ∈ order, ∃ node group, selected taskIndex = some node ∧
        groups[taskIndex]? = some group ∧ node ∈ group

theorem orderings_perm {n : Nat} {items order : List Nat} (size : items.length = n)
    (member : order ∈ orderings n items) : order.Perm items := by
  induction n generalizing items order with
  | zero =>
      rw [List.mem_singleton.mp member, List.eq_nil_of_length_eq_zero size]
  | succ n ih =>
      simp only [orderings, List.mem_flatMap, List.mem_map] at member
      obtain ⟨first, inside, rest, found, rfl⟩ := member
      have smaller : (items.erase first).length = n := by
        rw [List.length_erase_of_mem inside, size]
        rfl
      exact ((ih smaller found).cons first).trans (List.perm_cons_erase inside).symm

theorem best_mem {evaluations : List RouteEvaluation}
    (chosen : best preferences evaluations = some evaluation) : evaluation ∈ evaluations := by
  cases evaluations with
  | nil => contradiction
  | cons first rest =>
      obtain rfl := Option.some.inj chosen
      clear chosen
      induction rest generalizing first with
      | nil => exact List.mem_singleton_self _
      | cons item rest ih =>
          simp only [List.foldl_cons]
          split
          · obtain same | kept := List.mem_cons.mp (ih item)
            · rw [same]
              exact List.mem_cons_of_mem _ List.mem_cons_self
            · exact List.mem_cons_of_mem _ (List.mem_cons_of_mem _ kept)
          · obtain same | kept := List.mem_cons.mp (ih first)
            · rw [same]
              exact List.mem_cons_self
            · exact List.mem_cons_of_mem _ (List.mem_cons_of_mem _ kept)

/-- The results of a map that may fail, item by item. -/
theorem mapM_forall₂ {f : α → Option β} {items : List α} {results : List β}
    (mapped : items.mapM f = some results) :
    List.Forall₂ (fun item result => f item = some result) items results := by
  induction items generalizing results with
  | nil =>
      obtain rfl : results = [] := by simpa [eq_comm] using mapped
      exact .nil
  | cons item rest ih =>
      simp only [List.mapM_cons, bind, Option.bind_eq_some_iff, pure, Option.some.injEq] at mapped
      obtain ⟨first, found, others, mapped, rfl⟩ := mapped
      exact .cons found (ih mapped)

theorem mapM_mem {f : α → Option β} {items : List α} {results : List β}
    (mapped : items.mapM f = some results) {result : β} (member : result ∈ results) :
    ∃ item ∈ items, f item = some result := by
  have paired := mapM_forall₂ mapped
  clear mapped
  induction paired with
  | nil => contradiction
  | cons found _ ih =>
      obtain rfl | later := List.mem_cons.mp member
      · exact ⟨_, List.mem_cons_self, found⟩
      · obtain ⟨item, inside, found⟩ := ih later
        exact ⟨item, List.mem_cons_of_mem _ inside, found⟩

/-- Where each task has one candidate, it is the one selected. -/
theorem selectionOf_of_mem {nodes : List CandidateNode} {node : CandidateNode}
    (distinct : (nodes.map CandidateNode.taskIndex).Nodup) (member : node ∈ nodes) :
    selectionOf nodes node.taskIndex = some node := by
  obtain ⟨other, found⟩ := Option.isSome_iff_exists.mp
    ((List.find?_isSome (p := fun other : CandidateNode => other.taskIndex = node.taskIndex)).mpr
      ⟨node, List.mem_reverse.mpr member, decide_eq_true rfl⟩)
  have inside := List.mem_reverse.mp (List.mem_of_find?_eq_some found)
  have named : other.taskIndex = node.taskIndex := by simpa using List.find?_some found
  rw [selectionOf, found, List.inj_on_of_nodup_map distinct inside member named]

/-- The selected candidates come from the groups of their tasks. -/
def Chosen (groups : List (List CandidateNode)) (order : List Nat) (selected : Selection) : Prop :=
  ∀ taskIndex ∈ order, ∃ node group, selected taskIndex = some node ∧
    groups[taskIndex]? = some group ∧ node ∈ group

/-- Every state of the beam visits distinct tasks and has selected a candidate of each. -/
structure BeamState.Sound (groups : List (List CandidateNode)) (n : Nat) (state : BeamState) :
    Prop where
  length : state.order.length = n
  nodup : state.order.Nodup
  visited : ∀ taskIndex ∈ state.order, (state.selected taskIndex).isSome = true
  chosen : Chosen groups state.order state.selected

variable {groups : List (List CandidateNode)} {state after : BeamState}

theorem BeamState.sound_start : BeamState.Sound groups 0 ⟨[], fun _ => none, 0, 0⟩ :=
  ⟨rfl, List.nodup_nil, by simp, by simp [Chosen]⟩

theorem extend_sound (sound : state.Sound groups n) (fresh : state.selected taskIndex = none)
    (candidate : groups[taskIndex]? = some group) (member : node ∈ group)
    (extended : extend matrix preferences state taskIndex node = some after) :
    after.Sound groups (n + 1) := by
  simp only [extend, Option.map_eq_some_iff] at extended
  obtain ⟨edge, -, rfl⟩ := extended
  have unvisited : taskIndex ∉ state.order := fun visited => by
    simpa [fresh] using sound.visited taskIndex visited
  refine ⟨by simp [sound.length], ?_, fun index visited => ?_, fun index visited => ?_⟩
  · refine List.nodup_append.mpr ⟨sound.nodup, List.nodup_singleton _, ?_⟩
    intro index inside other new same
    rw [List.mem_singleton.mp new] at same
    exact unvisited (same ▸ inside)
  · obtain old | new := List.mem_append.mp visited
    · have apart : index ≠ taskIndex := fun same => unvisited (same ▸ old)
      simpa [Function.update_of_ne apart] using sound.visited index old
    · simp [List.mem_singleton.mp new]
  · obtain old | new := List.mem_append.mp visited
    · have apart : index ≠ taskIndex := fun same => unvisited (same ▸ old)
      simpa [Function.update_of_ne apart] using sound.chosen index old
    · rw [List.mem_singleton.mp new]
      exact ⟨node, group, Function.update_self .., candidate, member⟩

theorem mem_continuations {states : List BeamState} {required : List Int} :
    (state, taskIndex, node) ∈ (states.flatMap fun state =>
      groups.zipIdx.flatMap fun (group, taskIndex) =>
        if (state.selected taskIndex).isSome ∨
            ¬ taskOrderAllowed state.order taskIndex required then []
        else group.map fun node => (state, taskIndex, node)) ↔
      state ∈ states ∧ ∃ group, groups[taskIndex]? = some group ∧ node ∈ group ∧
        state.selected taskIndex = none ∧
        taskOrderAllowed state.order taskIndex required = true := by
  simp only [List.mem_flatMap, Prod.exists]
  constructor
  · rintro ⟨state', present, group, index, candidate, continued⟩
    split at continued
    · contradiction
    · rename_i free
      simp only [List.mem_map, Prod.mk.injEq] at continued
      obtain ⟨node', member, rfl, rfl, rfl⟩ := continued
      exact ⟨present, group, List.mem_zipIdx_iff_getElem?.mp candidate, member,
        by simpa [not_or] using free⟩
  · rintro ⟨present, group, placed, member, fresh, allowed⟩
    refine ⟨state, present, group, taskIndex, List.mem_zipIdx_iff_getElem?.mpr placed, ?_⟩
    rw [if_neg (by simp [fresh, allowed])]
    exact List.mem_map_of_mem member

/-- Every state of a layer continues one of the layer before by an unvisited, allowed task. -/
theorem mem_beamLayer {states results : List BeamState}
    (layer : beamLayer groups matrix preferences constraints width states = some results)
    (member : after ∈ results) :
    ∃ state ∈ states, ∃ taskIndex node group, groups[taskIndex]? = some group ∧ node ∈ group ∧
      state.selected taskIndex = none ∧
      taskOrderAllowed state.order taskIndex constraints.requiredTaskOrder = true ∧
      extend matrix preferences state taskIndex node = some after := by
  simp only [beamLayer, bind, Option.bind_eq_some_iff, pure, Option.some.injEq] at layer
  obtain ⟨expanded, mapped, rfl⟩ := layer
  have inside := (List.perm_insertionSort _ _).mem_iff.mp (List.mem_of_mem_take member)
  obtain ⟨⟨state, taskIndex, node⟩, continued, extended⟩ := mapM_mem mapped inside
  obtain ⟨present, group, placed, member, fresh, allowed⟩ := mem_continuations.mp continued
  exact ⟨state, present, taskIndex, node, group, placed, member, fresh, allowed, extended⟩

theorem beamLayer_sound {states results : List BeamState}
    (sound : ∀ state ∈ states, state.Sound groups n)
    (layer : beamLayer groups matrix preferences constraints width states = some results) :
    ∀ state ∈ results, state.Sound groups (n + 1) := by
  intro after member
  obtain ⟨state, present, _, _, _, placed, inside, fresh, -, extended⟩ := mem_beamLayer layer member
  exact extend_sound (sound state present) fresh placed inside extended

theorem beamLayers_sound {states results : List BeamState} (layers : List Nat)
    (sound : ∀ state ∈ states, state.Sound groups n)
    (ran : layers.foldlM (fun states _ =>
      beamLayer groups matrix preferences constraints width states) states = some results) :
    ∀ state ∈ results, state.Sound groups (n + layers.length) := by
  induction layers generalizing states n with
  | nil =>
      cases Option.some.inj ran
      exact sound
  | cons layer rest ih =>
      simp only [List.foldlM_cons, bind, Option.bind_eq_some_iff] at ran
      obtain ⟨middle, first, ran⟩ := ran
      have all := ih (beamLayer_sound sound first) ran
      rw [List.length_cons, Nat.add_comm rest.length, ← Nat.add_assoc]
      exact all

theorem beamJoint_sound (found : beamJoint groups matrix preferences constraints = some results)
    (member : (order, selected) ∈ results) :
    order.Perm (List.range groups.length) ∧ Chosen groups order selected := by
  simp only [beamJoint, bind, Option.bind_eq_some_iff, pure, Option.some.injEq] at found
  obtain ⟨states, ran, rfl⟩ := found
  simp only [List.mem_map, Prod.mk.injEq] at member
  obtain ⟨state, inside, rfl, rfl⟩ := member
  have start : ∀ state ∈ [(⟨[], fun _ => none, 0, 0⟩ : BeamState)], state.Sound groups 0 := by
    intro state member
    rw [List.mem_singleton.mp member]
    exact BeamState.sound_start
  have sound := beamLayers_sound _ start ran state inside
  refine ⟨?_, sound.chosen⟩
  have within : state.order ⊆ List.range groups.length := by
    intro taskIndex visited
    obtain ⟨_, _, _, candidate, _⟩ := sound.chosen taskIndex visited
    exact List.mem_range.mpr (List.getElem?_eq_some_iff.mp candidate).1
  exact (List.subperm_of_subset sound.nodup within).perm_of_length_le
    (by simp [sound.length])

theorem product_mem {groups : List (List CandidateNode)} (member : selection ∈ product groups) :
    List.Forall₂ (· ∈ ·) selection groups := by
  induction groups generalizing selection with
  | nil =>
      rw [List.mem_singleton.mp member]
      exact .nil
  | cons group rest ih =>
      simp only [product, List.mem_flatMap, List.mem_map] at member
      obtain ⟨node, inside, others, found, rfl⟩ := member
      exact .cons inside (ih found)

/-- The groups of `optimize_route`. -/
def singleGroups (count : Nat) : List (List CandidateNode) :=
  (List.range count).map fun i => [singleNode i]

theorem product_singleGroups (member : selection ∈ product (singleGroups count)) :
    selection = (List.range count).map singleNode := by
  have chosen := product_mem member
  rw [singleGroups, List.forall₂_map_right_iff] at chosen
  simp only [List.mem_singleton] at chosen
  exact List.forall₂_eq_eq_eq ▸ List.forall₂_map_right_iff.mpr chosen

theorem selectionOf_singleNode (inside : taskIndex < count) :
    selectionOf ((List.range count).map singleNode) taskIndex = some (singleNode taskIndex) := by
  have member : singleNode taskIndex ∈ ((List.range count).map singleNode).reverse := by
    simpa using ⟨taskIndex, inside, rfl⟩
  obtain ⟨node, found⟩ := Option.isSome_iff_exists.mp
    ((List.find?_isSome (p := fun node : CandidateNode => decide (node.taskIndex = taskIndex))).mpr
      ⟨_, member, by simp [singleNode]⟩)
  have same := List.find?_some found
  have origin := List.mem_of_find?_eq_some found
  simp only [List.mem_reverse, List.mem_map] at origin
  obtain ⟨index, -, rfl⟩ := origin
  obtain rfl : index = taskIndex := by simpa [singleNode] using same
  exact found

theorem chosen_singleGroups (chosen : Chosen (singleGroups count) order selected)
    (visited : taskIndex ∈ order) : selected taskIndex = some (singleNode taskIndex) := by
  obtain ⟨node, group, found, candidate, inside⟩ := chosen taskIndex visited
  obtain ⟨bound, rfl⟩ := List.getElem?_eq_some_iff.mp candidate
  have same : node = singleNode taskIndex := by simpa [singleGroups] using inside
  rw [found, same]

theorem visit_congr (same : selected taskIndex = selected' taskIndex) (walk : Walk) :
    visit ctx selected walk taskIndex = visit ctx selected' walk taskIndex := by
  simp only [visit, same]

theorem evaluateJointOrder_congr {order : List Nat}
    (same : ∀ taskIndex ∈ order, selected taskIndex = selected' taskIndex) :
    evaluateJointOrder ctx order selected = evaluateJointOrder ctx order selected' := by
  have walks (start : Walk) : order.foldlM (visit ctx selected) start =
      order.foldlM (visit ctx selected') start := by
    induction order generalizing start with
    | nil => rfl
    | cons index rest ih =>
        simp only [List.foldlM_cons, visit_congr (same index List.mem_cons_self)]
        congr
        funext walk
        exact ih (fun later member => same later (List.mem_cons_of_mem _ member)) walk
  simp only [evaluateJointOrder, walks]

/-- What `optimize_route` is asked to evaluate: the default preferences and no constraint. -/
def plainContext (departure : DateTime) (tasks : List PlanningTask) (matrix : RouteMatrix)
    (baseline : ℚ) : Context where
  departure := departure
  tasks := tasks
  matrix := compatibilityMatrix matrix
  preferences := {}
  constraints := {}
  mode := .walking
  baselineDistanceMeters := some baseline

/-- Every searched order visits all the tasks through their single candidates. -/
theorem searched_singleGroups (complete : solver.Complete)
    (search : searched solver ctx (singleGroups ctx.tasks.length) = some (results, algorithm))
    (member : (order, selected) ∈ results) :
    order.Perm (List.range ctx.tasks.length) ∧
      ∀ taskIndex ∈ order, selected taskIndex = some (singleNode taskIndex) := by
  have groups : (singleGroups ctx.tasks.length).length = ctx.tasks.length := by
    simp [singleGroups]
  simp only [searched] at search
  split at search
  · obtain ⟨rfl, -⟩ := Prod.mk.injEq .. ▸ Option.some.inj search
    simp only [List.mem_flatMap, List.mem_map, Prod.mk.injEq] at member
    obtain ⟨selection, chosen, order', permuted, rfl, rfl⟩ := member
    have perm := orderings_perm List.length_range permuted
    refine ⟨perm, fun taskIndex visited => ?_⟩
    rw [product_singleGroups chosen]
    exact selectionOf_singleNode (List.mem_range.mp (perm.mem_iff.mp visited))
  · simp only [searchLarge] at search
    split at search
    · rename_i answer solved
      obtain ⟨rfl, -⟩ := Prod.mk.injEq .. ▸ Option.some.inj search
      obtain rfl := List.mem_singleton.mp member
      split at solved
      · contradiction
      · obtain ⟨perm, within⟩ := complete _ _ _ _ _ _ _ _ solved
        rw [groups] at perm
        exact ⟨perm, fun taskIndex visited => chosen_singleGroups within visited⟩
    · simp only [bind, Option.bind_eq_some_iff, pure, Option.some.injEq, Prod.mk.injEq] at search
      obtain ⟨results', beam, rfl, -⟩ := search
      obtain ⟨perm, within⟩ := beamJoint_sound beam member
      rw [groups] at perm
      exact ⟨perm, fun taskIndex visited => chosen_singleGroups within visited⟩

/-- The answer of `optimize_route` is the evaluation of one order of all the tasks. -/
theorem optimizeRoute_spec (complete : solver.Complete)
    (found : optimizeRoute solver departure tasks matrix = some (evaluation, algorithm)) :
    ∃ order baseline, order.Perm (List.range tasks.length) ∧
      evaluateJointOrder (plainContext departure tasks matrix baseline) order
        (fun taskIndex => some (singleNode taskIndex)) = some evaluation := by
  simp only [optimizeRoute, optimizeJointRoute, bind, Option.bind_eq_some_iff, pure,
    Option.some.injEq, Prod.mk.injEq, Prod.exists] at found
  obtain ⟨baseline, -, results, _, search, evaluations, mapped, _, chosen, rfl, rfl⟩ := found
  obtain ⟨⟨order, selected⟩, inside, evaluated⟩ := mapM_mem mapped (best_mem chosen)
  obtain ⟨perm, singles⟩ := searched_singleGroups complete search inside
  exact ⟨order, baseline, perm, (evaluateJointOrder_congr singles).symm.trans evaluated⟩

end MapGo.Route
