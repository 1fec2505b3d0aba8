import MapGo.Route.Search
import MapGo.Route.Timeline

/-! The detour of a plan against its baseline, the route through the first candidates in the order
of the tasks. The baseline has no way home, and the evaluation of a refined route has no baseline. -/
namespace MapGo.Route

def detour (baseline : ℚ) (e : RouteEvaluation) : ℚ := max 0 (e.totalDistance - baseline)

/-- Replaces the edge between two points. -/
def RouteMatrix.put (matrix : RouteMatrix) (i j : Nat) (edge : RouteEdge) : RouteMatrix :=
  ⟨matrix.edges.modify i (·.set j edge)⟩

/-- The matrix with the verified transit edges along the selected candidates. -/
def refineMatrix (matrix : RouteMatrix) (constraints : HardConstraints)
    (nodes : List CandidateNode) (transitEdges : List RouteEdge) : RouteMatrix :=
  let (refined, previous) := (nodes.zip transitEdges).foldl
    (fun (matrix, previous) (node, edge) =>
      (matrix.put previous node.matrixIndex edge, node.matrixIndex)) (matrix, 0)
  match transitEdges.getLast? with
  | some edge =>
      if constraints.mustReturnToOrigin ∧ nodes.length < transitEdges.length then
        refined.put previous 0 edge
      else refined
  | none => refined

/-- `reevaluate_selected_route`: no previous order and no baseline are handed over. -/
def reevaluateSelectedRoute (ctx : Context) (evaluation : RouteEvaluation) :
    Option RouteEvaluation :=
  evaluateJointOrder { ctx with previousOrder := [], baselineDistanceMeters := none }
    evaluation.order (selectionOf evaluation.selectedNodes)

/-- The edges that a search result is refined with, where it is. -/
def refinement (ctx : Context) (transit : List CandidateNode → Option (List RouteEdge))
    (evaluation : RouteEvaluation) : Option (List RouteEdge) :=
  if ctx.mode = .transit ∧ evaluation.selectedNodes ≠ [] then transit evaluation.selectedNodes
  else none

def Context.refined (ctx : Context) (evaluation : RouteEvaluation) (edges : List RouteEdge) :
    Context :=
  { ctx with matrix := refineMatrix ctx.matrix ctx.constraints evaluation.selectedNodes edges }

/-- The route that `PlannerAgent.run` reports; `transit` answers for the verified edges along the
selected candidates, with `none` where the tool is out of order. -/
def planRoute (ctx : Context) (solver : RoutingSolver) (groups : List (List CandidateNode))
    (transit : List CandidateNode → Option (List RouteEdge)) :
    Option (RouteEvaluation × String) := do
  let (evaluation, algorithm) ← ctx.joint solver groups
  match refinement ctx transit evaluation with
  | none => return (evaluation, algorithm)
  | some edges =>
      let evaluation ← reevaluateSelectedRoute (ctx.refined evaluation edges) evaluation
      return (evaluation, algorithm ++ "+amap-transit-refinement")

/-- The first candidates, in the order of their tasks. -/
def firstCandidates (groups : List (List CandidateNode)) : List CandidateNode :=
  groups.filterMap List.head?

def baselineSelection (groups : List (List CandidateNode)) : Selection :=
  fun taskIndex => (groups[taskIndex]?).bind List.head?

/-- The length of a route along some candidates and home. -/
def routeLength (ctx : Context) (nodes : List CandidateNode) : Option ℚ :=
  (legs ctx.matrix 0 nodes).map fun edges => (edges.map RouteEdge.distanceMeters).sum +
    ((homeward ctx nodes).map RouteEdge.distanceMeters).getD 0

variable {ctx : Context} {groups : List (List CandidateNode)} {nodes : List CandidateNode}
  {matrix : RouteMatrix} {selected : Selection} {order : List Nat} {e : RouteEvaluation}
  {baseline : ℚ}

/-- The baseline is the length of the edges along the first candidates. -/
theorem baselineDistance_eq_some_iff : baselineDistance groups matrix = some baseline ↔
    ∃ edges, legs matrix 0 (firstCandidates groups) = some edges ∧
      baseline = (edges.map RouteEdge.distanceMeters).sum := by
  have run (nodes : List CandidateNode) (start : ℚ) (previous : Nat) : (nodes.foldlM
      (fun (walked : ℚ × Nat) (node : CandidateNode) => do
        let edge ← matrix.edge walked.2 node.matrixIndex
        return (walked.1 + edge.distanceMeters, node.matrixIndex)) (start, previous)).bind
          (fun walked => some walked.1) =
      (legs matrix previous nodes).map fun edges =>
        start + (edges.map RouteEdge.distanceMeters).sum := by
    induction nodes generalizing start previous with
    | nil => exact congrArg some (add_zero start).symm
    | cons node rest ih =>
        rw [List.foldlM_cons, legs]
        cases matrix.edge previous node.matrixIndex with
        | none => rfl
        | some edge =>
            have onward := ih (start + edge.distanceMeters) node.matrixIndex
            simp only [bind, Option.bind_some, pure] at onward ⊢
            rw [onward, Option.map_map]
            congr 1
            funext edges
            simp [add_assoc]
  have length := run (firstCandidates groups) 0 0
  have same : baselineDistance groups matrix =
      (legs matrix 0 (firstCandidates groups)).map fun edges =>
        0 + (edges.map RouteEdge.distanceMeters).sum := by
    rw [← length]
    rfl
  rw [same, Option.map_eq_some_iff]
  constructor
  · rintro ⟨edges, along, rfl⟩
    exact ⟨edges, along, zero_add _⟩
  · rintro ⟨edges, along, rfl⟩
    exact ⟨edges, along, zero_add _⟩

theorem Homeward.eq_homeward {home : Option RouteEdge} (returns : Homeward ctx nodes home) :
    homeward ctx nodes = home := by
  unfold homeward
  split
  next wanted =>
    cases last : nodes.getLast? with
    | none => exact (returns.stays (.inr (List.getLast?_eq_none_iff.mp last))).symm
    | some node =>
        obtain ⟨edge, found, same⟩ := returns.travels wanted node last
        rw [same]
        exact found
  next unwanted => exact (returns.stays (.inl (Bool.eq_false_iff.mpr unwanted))).symm

/-- The total distance of an evaluation is the length of its route. -/
theorem evaluate_routeLength (evaluated : evaluateJointOrder ctx order selected = some e) :
    routeLength ctx (order.filterMap selected) = some e.totalDistance := by
  obtain ⟨nodes, edges, home, follows⟩ := evaluate_follows evaluated
  have same : order.filterMap selected = nodes := by
    have mapped := congrArg (List.filterMap id) follows.chosen
    rw [List.filterMap_map, List.filterMap_map] at mapped
    exact mapped.symm.trans List.filterMap_some
  rw [same, routeLength, follows.along, follows.returns.eq_homeward, follows.distance]
  rfl

theorem filterMap_range (items : List α) :
    (List.range items.length).filterMap (fun i => items[i]?) = items := by
  induction items with
  | nil => rfl
  | cons item rest ih =>
      rw [List.length_cons, List.range_succ_eq_map, List.filterMap_cons, List.filterMap_map]
      exact congrArg (item :: ·) ih

theorem range_filterMap : (List.range groups.length).filterMap (baselineSelection groups) =
    firstCandidates groups := by
  rw [firstCandidates]
  conv_rhs => rw [← filterMap_range groups, List.filterMap_filterMap]
  rfl

/-- The baseline route is longer than the baseline by the way home. -/
theorem baseline_route_length (based : baselineDistance groups ctx.matrix = some baseline)
    (evaluated : evaluateJointOrder ctx (List.range groups.length) (baselineSelection groups) =
      some e) :
    e.totalDistance = baseline +
      ((homeward ctx (firstCandidates groups)).map RouteEdge.distanceMeters).getD 0 := by
  obtain ⟨edges, along, rfl⟩ := baselineDistance_eq_some_iff.mp based
  have length := evaluate_routeLength evaluated
  rw [range_filterMap, routeLength, along] at length
  exact (Option.some.inj length).symm

theorem baseline_detour_iff (ctx : Context) (based : baselineDistance groups ctx.matrix = some baseline)
    (evaluated : evaluateJointOrder ctx (List.range groups.length) (baselineSelection groups) =
      some e) :
    detour baseline e = 0 ↔
      ∀ edge, homeward ctx (firstCandidates groups) = some edge → edge.distanceMeters ≤ 0 := by
  rw [detour, baseline_route_length based evaluated, add_sub_cancel_left, max_eq_left_iff]
  cases homeward ctx (firstCandidates groups) with
  | none => simp
  | some edge => simp

/-- A feasible evaluation against a baseline keeps the limit on the detour. -/
theorem detour_le_of_feasible (ctx : Context) {limit : ℚ} (based : ctx.baselineDistanceMeters = some baseline)
    (limited : ctx.constraints.maxDetourMeters = some limit)
    (evaluated : evaluateJointOrder ctx order selected = some e) (feasible : e.feasible = true) :
    detour baseline e ≤ limit := by
  obtain ⟨walk, after, -, -, rfl⟩ := evaluateJointOrder_eq_some_iff.mp evaluated
  obtain ⟨-, clear⟩ := List.append_eq_nil_iff.mp (List.isEmpty_iff.mp feasible)
  simp only [tripConflicts, based, limited, List.flatten_eq_nil_iff, List.forall_mem_cons] at clear
  obtain ⟨-, -, -, -, -, inside, -⟩ := clear
  split at inside
  next => contradiction
  next short => exact not_lt.mp short

theorem joint_evaluated {solver : RoutingSolver} {algorithm : String}
    (joint : ctx.joint solver groups = some (e, algorithm)) :
    ∃ order selected baseline, baselineDistance groups ctx.matrix = some baseline ∧
      evaluateJointOrder { ctx with baselineDistanceMeters := some baseline } order selected =
        some e := by
  simp only [Context.joint, optimizeJointRoute, bind, Option.bind_eq_some_iff, pure,
    Option.some.injEq, Prod.mk.injEq, Prod.exists] at joint
  obtain ⟨baseline, based, found, name, -, evaluations, mapped, chosen, least, rfl, rfl⟩ := joint
  obtain ⟨⟨order, selected⟩, -, evaluated⟩ := mapM_mem mapped (best_mem least)
  exact ⟨order, selected, baseline, based, evaluated⟩

/-- Whatever search is used, it finds orders of all the tasks through candidates of their groups. -/
theorem searched_chosen {solver : RoutingSolver} (complete : solver.Complete)
    (sized : groups.length = ctx.tasks.length) (owned : Owned groups)
    (search : searched solver ctx groups = some (found, algorithm))
    (member : (order, selected) ∈ found) :
    order.Perm (List.range groups.length) ∧ Chosen groups order selected := by
  cases small : isExact groups ctx.tasks.length with
  | true =>
      obtain ⟨perm, chooses⟩ := (searched_exact ctx sized owned small search).1 order selected member
      exact ⟨perm, chooses.chosen perm⟩
  | false =>
      simp only [searched, small, Bool.false_eq_true, if_false, searchLarge] at search
      split at search
      · rename_i answer solved
        obtain ⟨rfl, -⟩ := Prod.mk.injEq .. ▸ Option.some.inj search
        obtain rfl := List.mem_singleton.mp member
        split at solved
        · contradiction
        · exact complete _ _ _ _ _ _ _ _ solved
      · simp only [bind, Option.bind_eq_some_iff, pure, Option.some.injEq, Prod.mk.injEq] at search
        obtain ⟨results, beam, rfl, -⟩ := search
        exact beamJoint_sound beam member

/-- The answer of the joint search visits every task once. -/
theorem joint_tour {solver : RoutingSolver} {algorithm : String} (complete : solver.Complete)
    (sized : groups.length = ctx.tasks.length) (owned : Owned groups)
    (joint : ctx.joint solver groups = some (e, algorithm)) : Tour groups e := by
  simp only [Context.joint, optimizeJointRoute, bind, Option.bind_eq_some_iff, pure,
    Option.some.injEq, Prod.mk.injEq, Prod.exists] at joint
  obtain ⟨baseline, -, found, name, search, evaluations, mapped, chosen, least, rfl, rfl⟩ := joint
  obtain ⟨⟨order, selected⟩, member, evaluated⟩ := mapM_mem mapped (best_mem least)
  obtain ⟨perm, picks⟩ := searched_chosen complete sized owned search member
  exact tour_of_chosen evaluated perm picks

/-- The stops of a tour are in the order of their own tasks. -/
theorem Tour.order_eq (tour : Tour groups e) (owned : Owned groups) :
    e.order = e.selectedNodes.map CandidateNode.taskIndex := by
  refine List.forall₂_eq_eq_eq ▸ List.forall₂_map_right_iff.mpr (tour.2.imp ?_)
  rintro taskIndex node ⟨group, placed, member⟩
  exact (owned taskIndex group placed node member).symm

/-- The refined route is the same tour. -/
theorem Tour.reevaluated {refined : RouteEvaluation} (tour : Tour groups e) (owned : Owned groups)
    (judged : reevaluateSelectedRoute ctx e = some refined) : Tour groups refined := by
  refine tour_of_chosen judged tour.1 fun taskIndex visited => ?_
  have distinct : (e.selectedNodes.map CandidateNode.taskIndex).Nodup :=
    tour.order_eq owned ▸ tour.1.nodup_iff.mpr List.nodup_range
  rw [tour.order_eq owned] at visited
  obtain ⟨node, member, rfl⟩ := List.mem_map.mp visited
  obtain ⟨k, bound, rfl⟩ := List.mem_iff_getElem.mp member
  obtain ⟨group, placed, inside⟩ := tour.2.get (tour.2.length_eq ▸ bound) bound
  simp only [List.get_eq_getElem] at placed inside
  refine ⟨_, group, selectionOf_of_mem distinct member, ?_, inside⟩
  rw [owned _ group placed _ inside]
  exact placed

/-- Every edge of the matrix has a property. -/
def RouteMatrix.Everywhere (P : RouteEdge → Prop) (matrix : RouteMatrix) : Prop :=
  ∀ row ∈ matrix.edges, ∀ edge ∈ row, P edge

theorem RouteMatrix.Everywhere.edge {P : RouteEdge → Prop} {i j : Nat} {edge : RouteEdge}
    (all : matrix.Everywhere P) (found : matrix.edge i j = some edge) : P edge := by
  obtain ⟨row, placed, inside⟩ := Option.bind_eq_some_iff.mp found
  exact all row (List.mem_of_getElem? placed) edge (List.mem_of_getElem? inside)

theorem RouteMatrix.Everywhere.put {P : RouteEdge → Prop} {i j : Nat} {edge : RouteEdge}
    (all : matrix.Everywhere P) (new : P edge) : (matrix.put i j edge).Everywhere P := by
  intro row inside other member
  obtain ⟨k, there⟩ := List.mem_iff_getElem?.mp inside
  rw [RouteMatrix.put, List.getElem?_modify] at there
  obtain ⟨old, placed, rfl⟩ := Option.map_eq_some_iff.mp there
  have known := all old (List.mem_of_getElem? placed)
  split at member
  · obtain here | rfl := List.mem_or_eq_of_mem_set member
    · exact known other here
    · exact new
  · exact known other member

/-- Refinement only puts verified edges into the matrix. -/
theorem refineMatrix_everywhere {P : RouteEdge → Prop} {constraints : HardConstraints}
    {edges : List RouteEdge} (all : matrix.Everywhere P) (verified : ∀ edge ∈ edges, P edge) :
    (refineMatrix matrix constraints nodes edges).Everywhere P := by
  have run (pairs : List (CandidateNode × RouteEdge)) (inside : ∀ pair ∈ pairs, P pair.2)
      (matrix : RouteMatrix) (previous : Nat) (all : matrix.Everywhere P) :
      (pairs.foldl (fun (walked : RouteMatrix × Nat) (pair : CandidateNode × RouteEdge) =>
        (walked.1.put walked.2 pair.1.matrixIndex pair.2, pair.1.matrixIndex))
        (matrix, previous)).1.Everywhere P := by
    induction pairs generalizing matrix previous with
    | nil => exact all
    | cons pair pairs ih =>
        exact ih (fun other later => inside other (List.mem_cons_of_mem _ later)) _ _
          (all.put (inside pair List.mem_cons_self))
  have along := run (nodes.zip edges)
    (fun pair member => verified _ (List.of_mem_zip member).2) matrix 0 all
  unfold refineMatrix
  dsimp only
  split
  · rename_i edge last
    split
    · exact RouteMatrix.Everywhere.put along (verified edge (List.mem_of_getLast? last))
    · exact along
  · exact along

/-- The refined route, way home included, is longer than the baseline by no more than the limit. -/
def RefinedWithin (ctx : Context) (baseline : ℚ) (found : RouteEvaluation)
    (edges : List RouteEdge) : Prop :=
  ∀ limit length, ctx.constraints.maxDetourMeters = some limit →
    routeLength (ctx.refined found edges)
      (found.order.filterMap (selectionOf found.selectedNodes)) = some length →
    length ≤ baseline + limit

/-- The baseline route has no detour exactly where its way home has no length; a plan that is
reported as feasible keeps the limit exactly where it was not refined or its refined edges do. -/
theorem detour_consistent_iff (ctx : Context) (solver : RoutingSolver)
    (groups : List (List CandidateNode)) (transit : List CandidateNode → Option (List RouteEdge))
    (baseline : ℚ) (limits : ∀ limit, ctx.constraints.maxDetourMeters = some limit → 0 ≤ limit)
    (based : baselineDistance groups ctx.matrix = some baseline) :
    (∀ first, evaluateJointOrder { ctx with baselineDistanceMeters := some baseline }
        (List.range groups.length) (baselineSelection groups) = some first →
      (detour baseline first = 0 ↔
        ∀ edge, homeward ctx (firstCandidates groups) = some edge → edge.distanceMeters ≤ 0)) ∧
    (∀ found search e algorithm, ctx.joint solver groups = some (found, search) →
      planRoute ctx solver groups transit = some (e, algorithm) → e.feasible = true →
      ((∀ limit, ctx.constraints.maxDetourMeters = some limit → detour baseline e ≤ limit) ↔
        ∀ edges, refinement ctx transit found = some edges →
          RefinedWithin ctx baseline found edges)) := by
  let against := { ctx with baselineDistanceMeters := some baseline }
  refine ⟨fun first => baseline_detour_iff against based, ?_⟩
  intro found search e algorithm joint planned feasible
  rw [planRoute, joint] at planned
  simp only [bind, Option.bind_some] at planned
  cases refines : refinement ctx transit found with
  | none =>
      rw [refines] at planned
      obtain ⟨rfl, -⟩ := Prod.mk.inj (Option.some.inj planned)
      refine iff_of_true (fun limit limited => ?_) (fun edges refined => absurd refined (by simp))
      obtain ⟨order, selected, other, same, judged⟩ := joint_evaluated joint
      obtain rfl := Option.some.inj (based.symm.trans same)
      exact detour_le_of_feasible against rfl limited judged feasible
  | some edges =>
      rw [refines] at planned
      obtain ⟨refined, judged, planned⟩ := Option.bind_eq_some_iff.mp planned
      obtain ⟨rfl, -⟩ := Prod.mk.inj (Option.some.inj planned)
      have length := evaluate_routeLength judged
      have within (limit : ℚ) (nonneg : 0 ≤ limit) :
          detour baseline refined ≤ limit ↔ refined.totalDistance ≤ baseline + limit := by
        rw [detour, max_le_iff, sub_le_iff_le_add']
        exact and_iff_right nonneg
      constructor
      · intro keeps other same limit measured limited walked
        obtain rfl := Option.some.inj same
        obtain rfl := Option.some.inj (length.symm.trans walked)
        exact (within limit (limits limit limited)).mp (keeps limit limited)
      · intro keeps limit limited
        exact (within limit (limits limit limited)).mpr
          (keeps edges rfl limit refined.totalDistance limited length)

/-- One museum half a kilometre away, by public transport. -/
def transitTrip (constraints : HardConstraints) : Context where
  departure := ⟨0, 0⟩
  tasks := [{ description := "museum" }]
  matrix := ⟨List.replicate 2 (List.replicate 2 ⟨600, 500, 1⟩)⟩
  preferences := {}
  constraints := constraints
  mode := .transit

def transitGroups : List (List CandidateNode) := [[museumNode]]

/-- Transit edges of a length. -/
def transitEdges (metres : ℚ) : List CandidateNode → Option (List RouteEdge) :=
  fun nodes => some (nodes.map fun _ => ⟨600, metres, 1⟩)

/-- The trip of a user who allows a hundred metres of detour. -/
def nearTrip : Context := transitTrip { maxDetourMeters := some 100 }

def unsolved : RoutingSolver := fun _ _ _ _ _ _ => none

theorem detour_consistent_iff_near : ∃ first e algorithm,
    planRoute nearTrip unsolved transitGroups (transitEdges 550) = some (e, algorithm) ∧
    detour 500 first = 0 ∧ detour 500 e ≤ 100 := by
  have limits : ∀ limit, nearTrip.constraints.maxDetourMeters = some limit → 0 ≤ limit := by
    intro limit limited
    obtain rfl := Option.some.inj limited
    norm_num
  have started : (evaluateJointOrder { nearTrip with baselineDistanceMeters := some 500 } [0]
      (baselineSelection transitGroups)).isSome = true := by decide +kernel
  have refined : (planRoute nearTrip unsolved transitGroups (transitEdges 550)).any
      (fun answer => answer.1.feasible) = true := by decide +kernel
  have walked : (nearTrip.joint unsolved transitGroups).any (fun answer =>
      (refinement nearTrip (transitEdges 550) answer.1).all fun edges =>
        decide (routeLength (nearTrip.refined answer.1 edges)
          (answer.1.order.filterMap (selectionOf answer.1.selectedNodes)) = some 550)) = true := by
    decide +kernel
  obtain ⟨first, evaluated⟩ := Option.isSome_iff_exists.mp started
  obtain ⟨⟨e, algorithm⟩, planned, feasible⟩ := (Option.any_eq_true ..).mp refined
  obtain ⟨⟨found, search⟩, joint, short⟩ := (Option.any_eq_true ..).mp walked
  obtain ⟨zero, hard⟩ := detour_consistent_iff nearTrip unsolved transitGroups (transitEdges 550)
    500 limits (by decide +kernel)
  refine ⟨first, e, algorithm, planned, (zero first evaluated).mpr ?_,
    (hard found search e algorithm joint planned feasible).mpr ?_ 100 rfl⟩
  · intro edge home
    contradiction
  · intro edges refines limit length limited measured
    rw [refines] at short
    obtain rfl := Option.some.inj limited
    obtain rfl := Option.some.inj ((of_decide_eq_true short).symm.trans measured)
    norm_num

/-- The same trip with a way home. -/
def roundTrip : Context := transitTrip { maxDetourMeters := some 100, mustReturnToOrigin := true }

/-- The way home is a detour of the baseline route itself, and the refined route of five
kilometres is reported as feasible. -/
theorem detour_inconsistent :
    baselineDistance transitGroups roundTrip.matrix = some 500 ∧
    (∃ first found search,
      evaluateJointOrder { roundTrip with baselineDistanceMeters := some 500 } [0]
        (baselineSelection transitGroups) = some first ∧ detour 500 first = 500 ∧
      roundTrip.joint unsolved transitGroups = some (found, search) ∧ found.feasible = false) ∧
    ∃ e algorithm, planRoute nearTrip unsolved transitGroups (transitEdges 5000) =
      some (e, algorithm) ∧ e.feasible = true ∧ detour 500 e = 4500 := by
  have way : (evaluateJointOrder { roundTrip with baselineDistanceMeters := some 500 } [0]
      (baselineSelection transitGroups)).any (fun first => decide (detour 500 first = 500)) =
        true := by decide +kernel
  have rejected : (roundTrip.joint unsolved transitGroups).any
      (fun answer => !answer.1.feasible) = true := by decide +kernel
  have refined : (planRoute nearTrip unsolved transitGroups (transitEdges 5000)).any
      (fun answer => answer.1.feasible && decide (detour 500 answer.1 = 4500)) = true := by
    decide +kernel
  obtain ⟨first, evaluated, far⟩ := (Option.any_eq_true ..).mp way
  obtain ⟨⟨found, search⟩, joint, infeasible⟩ := (Option.any_eq_true ..).mp rejected
  obtain ⟨⟨e, algorithm⟩, planned, passes⟩ := (Option.any_eq_true ..).mp refined
  obtain ⟨feasible, longer⟩ := Bool.and_eq_true_iff.mp passes
  refine ⟨by decide +kernel, ⟨first, found, search, evaluated, of_decide_eq_true far, joint, ?_⟩,
    e, algorithm, planned, feasible, of_decide_eq_true longer⟩
  simpa using infeasible

end MapGo.Route
