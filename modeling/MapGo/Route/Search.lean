import MapGo.Route.Optimize
import MapGo.Route.Soundness

/-! What the joint search finds. Enumeration reaches every choice of candidates in every
order, and the answer has the least key among them. The beam keeps a state that can go on
as long as a task is left, since the chosen required tasks are a prefix of the required order. -/
namespace MapGo.Route

/-- The matrix points of the origin and of all candidates. -/
def matrixPoints (groups : List (List CandidateNode)) : List Nat :=
  0 :: groups.flatten.map CandidateNode.matrixIndex

def Covers (matrix : RouteMatrix) (groups : List (List CandidateNode)) : Prop :=
  ∀ i ∈ matrixPoints groups, ∀ j ∈ matrixPoints groups, (matrix.edge i j).isSome = true

/-- Candidates carry the index of their own group. -/
def Owned (groups : List (List CandidateNode)) : Prop :=
  ∀ (i : Nat) group, groups[i]? = some group → ∀ node ∈ group, node.taskIndex = i

/-- One candidate of every group. -/
def Chooses (groups : List (List CandidateNode)) (selected : Selection) : Prop :=
  ∀ (i : Nat) group, groups[i]? = some group → ∃ node ∈ group, selected i = some node

theorem orderings_complete {n : Nat} {items order : List Nat} (size : items.length = n)
    (perm : order.Perm items) : order ∈ orderings n items := by
  induction n generalizing items order with
  | zero =>
      rw [List.eq_nil_of_length_eq_zero (perm.length_eq.trans size)]
      exact List.mem_singleton_self _
  | succ n ih =>
      cases order with
      | nil =>
          have empty := perm.length_eq.trans size
          contradiction
      | cons first rest =>
          obtain ⟨inside, perm⟩ := List.cons_perm_iff_perm_erase.mp perm
          have smaller : (items.erase first).length = n := by
            rw [List.length_erase_of_mem inside, size]
            rfl
          simp only [orderings, List.mem_flatMap, List.mem_map]
          exact ⟨first, inside, rest, ih smaller perm, rfl⟩

theorem product_complete {groups : List (List α)} {selection : List α}
    (chosen : List.Forall₂ (· ∈ ·) selection groups) : selection ∈ product groups := by
  induction chosen with
  | nil => exact List.mem_singleton_self _
  | cons inside _ ih =>
      simp only [product, List.mem_flatMap, List.mem_map]
      exact ⟨_, inside, _, ih, rfl⟩

theorem best_least {preferences : PlanningPreferences} {evaluations : List RouteEvaluation}
    (chosen : best preferences evaluations = some e) :
    ∀ other ∈ evaluations, evaluationKey preferences e ≤ evaluationKey preferences other := by
  cases evaluations with
  | nil => contradiction
  | cons first rest =>
      obtain rfl := Option.some.inj chosen
      clear chosen
      induction rest generalizing first with
      | nil =>
          intro other member
          rw [List.mem_singleton.mp member]
          exact le_rfl
      | cons item rest ih =>
          intro other member
          simp only [List.foldl_cons]
          split
          · rename_i better
            obtain rfl | later := List.mem_cons.mp member
            · exact (ih item item List.mem_cons_self).trans better.le
            · exact ih item other later
          · rename_i kept
            have least := ih first first List.mem_cons_self
            obtain rfl | later := List.mem_cons.mp member
            · exact least
            · obtain rfl | last := List.mem_cons.mp later
              · exact least.trans (not_lt.mp kept)
              · exact ih first other (List.mem_cons_of_mem _ last)

theorem best_isSome (preferences : PlanningPreferences) {evaluations : List RouteEvaluation}
    (found : evaluations ≠ []) : ∃ e, best preferences evaluations = some e := by
  cases evaluations with
  | nil => contradiction
  | cons first rest => exact ⟨_, rfl⟩

section

variable {groups : List (List CandidateNode)} {matrix : RouteMatrix} {ctx : Context}
  {selected : Selection} {order : List Nat}

theorem mem_matrixPoints {i : Nat} {group : List CandidateNode} (placed : groups[i]? = some group)
    (member : node ∈ group) : node.matrixIndex ∈ matrixPoints groups :=
  List.mem_cons_of_mem _ (List.mem_map_of_mem
    (List.mem_flatten.mpr ⟨group, List.mem_of_getElem? placed, member⟩))

theorem Covers.edge (covered : Covers matrix groups) {i j : Nat} (source : i ∈ matrixPoints groups)
    (target : j ∈ matrixPoints groups) : ∃ edge, matrix.edge i j = some edge :=
  Option.isSome_iff_exists.mp (covered i source j target)

theorem visits_isSome (covered : Covers ctx.matrix groups) (chosen : Chosen groups order selected)
    (known : ∀ i ∈ order, i < ctx.tasks.length) (walk : Walk)
    (previous : walk.previous ∈ matrixPoints groups) :
    ∃ after, order.foldlM (visit ctx selected) walk = some after ∧
      after.previous ∈ matrixPoints groups := by
  induction order generalizing walk with
  | nil => exact ⟨walk, rfl, previous⟩
  | cons i rest ih =>
      obtain ⟨node, group, picked, placed, member⟩ := chosen i List.mem_cons_self
      have point := mem_matrixPoints placed member
      obtain ⟨edge, found⟩ := covered.edge previous point
      have task := List.getElem?_eq_getElem (known i List.mem_cons_self)
      simp only [List.foldlM_cons, visit, picked, found, task, bind, Option.bind_some, pure]
      exact ih (fun j member => chosen j (List.mem_cons_of_mem _ member))
        (fun j member => known j (List.mem_cons_of_mem _ member)) _ point

theorem evaluateJointOrder_isSome (covered : Covers ctx.matrix groups)
    (chosen : Chosen groups order selected) (known : ∀ i ∈ order, i < ctx.tasks.length) :
    ∃ e, evaluateJointOrder ctx order selected = some e := by
  obtain ⟨walk, ran, previous⟩ :=
    visits_isSome covered chosen known (Walk.start ctx order) List.mem_cons_self
  obtain ⟨edge, home⟩ := covered.edge previous List.mem_cons_self
  have returned : ∃ after, returnToOrigin ctx walk = some after := by
    simp only [returnToOrigin]
    split
    · exact ⟨_, by simp only [home, bind, Option.bind_some, pure]; rfl⟩
    · exact ⟨walk, rfl⟩
  obtain ⟨after, returned⟩ := returned
  exact ⟨_, by simp only [evaluateJointOrder, ran, returned, bind, Option.bind_some, pure]; rfl⟩

theorem evaluateJointOrder_nodes (evaluated : evaluateJointOrder ctx order selected = some e) :
    e.order = order ∧ e.selectedNodes.map some = order.map selected := by
  simp only [evaluateJointOrder, bind, Option.bind_eq_some_iff, pure, Option.some.injEq] at evaluated
  obtain ⟨walk, ran, after, home, rfl⟩ := evaluated
  have walked : Walked ctx selected (Walk.start ctx order).conflicts order walk :=
    (Walked.start order).run order ran
  exact ⟨rfl, (returnToOrigin_returned home walked.previous).nodes ▸ walked.nodes⟩

theorem selectionOf_getElem? {selection : List CandidateNode} (owned : Owned groups)
    (inside : List.Forall₂ (· ∈ ·) selection groups) (bound : i < groups.length) :
    selectionOf selection i = selection[i]? := by
  have index {j : Nat} {node : CandidateNode} (there : selection[j]? = some node) :
      node.taskIndex = j := by
    obtain ⟨left, rfl⟩ := List.getElem?_eq_some_iff.mp there
    have right : j < groups.length := inside.length_eq ▸ left
    exact owned j _ (List.getElem?_eq_getElem right) _ (inside.get left right)
  have here := List.getElem?_eq_getElem (inside.length_eq ▸ bound : i < selection.length)
  obtain ⟨node, found⟩ := Option.isSome_iff_exists.mp
    ((List.find?_isSome (p := fun node : CandidateNode => decide (node.taskIndex = i))).mpr
      ⟨_, List.mem_reverse.mpr (List.mem_of_getElem? here), by simp [index here]⟩)
  obtain ⟨j, there⟩ :=
    List.mem_iff_getElem?.mp (List.mem_reverse.mp (List.mem_of_find?_eq_some found))
  have same : node.taskIndex = i := by simpa using List.find?_some found
  rw [selectionOf, found, ← same, index there, there]

/-- Every choice is one of the product. -/
theorem Chooses.selection (owned : Owned groups) (chooses : Chooses groups selected) :
    ∃ selection ∈ product groups, ∀ i < groups.length, selectionOf selection i = selected i := by
  have picks : ∀ i : Fin groups.length, ∃ node ∈ groups[i], selected i = some node :=
    fun i => chooses i _ (List.getElem?_eq_getElem i.isLt)
  choose pick inside picked using picks
  have chosen : List.Forall₂ (· ∈ ·) (List.ofFn pick) groups := by
    refine List.forall₂_iff_get.mpr ⟨List.length_ofFn, fun i left right => ?_⟩
    simpa using inside ⟨i, right⟩
  refine ⟨_, product_complete chosen, fun i bound => ?_⟩
  rw [selectionOf_getElem? owned chosen bound, List.getElem?_ofFn, dif_pos bound]
  exact (picked ⟨i, bound⟩).symm

/-- The choices of the product take one candidate of every group. -/
theorem chooses_of_product (owned : Owned groups) (member : selection ∈ product groups) :
    Chooses groups (selectionOf selection) := by
  intro i group placed
  have inside := product_mem member
  obtain ⟨bound, rfl⟩ := List.getElem?_eq_some_iff.mp placed
  have left : i < selection.length := inside.length_eq ▸ bound
  exact ⟨selection[i], inside.get left bound, by
    rw [selectionOf_getElem? owned inside bound, List.getElem?_eq_getElem left]⟩

theorem product_ne_nil (full : [] ∉ groups) : product groups ≠ [] := by
  induction groups with
  | nil => simp [product]
  | cons group rest ih =>
      have filled : group ≠ [] := fun empty => full (empty ▸ List.mem_cons_self)
      obtain ⟨node, others, rfl⟩ := List.exists_cons_of_ne_nil filled
      have more := ih fun empty => full (List.mem_cons_of_mem _ empty)
      simp [product, more]

end

/-- The chosen required tasks are a prefix of the required order, and the state can travel on. -/
structure BeamState.Open (groups : List (List CandidateNode)) (required : List Int)
    (state : BeamState) : Prop where
  prefixed : (state.order.map Int.ofNat).filter (· ∈ required) <+: required
  selected : ∀ taskIndex, (state.selected taskIndex).isSome = true → taskIndex ∈ state.order
  previous : state.previous ∈ matrixPoints groups

section

variable {groups : List (List CandidateNode)} {matrix : RouteMatrix} {required : List Int}
  {state after : BeamState} {preferences : PlanningPreferences} {constraints : HardConstraints}

theorem taskOrderAllowed_iff {chosen : List Nat} {taskIndex : Nat} :
    taskOrderAllowed chosen taskIndex required = true ↔ ((taskIndex : Int) ∈ required →
      required.idxOf (taskIndex : Int) =
        ((chosen.map Int.ofNat).filter (· ∈ required)).length) := by
  have cast : (do let item ← chosen; pure (item : Int)) = chosen.map Int.ofNat := by
    simp [List.map_eq_flatMap]
  rw [taskOrderAllowed, cast]
  split <;> simp_all

theorem prefix_concat {done required : List α} {next : α} (before : done <+: required)
    (here : required[done.length]? = some next) : done ++ [next] <+: required := by
  obtain ⟨rest, rfl⟩ := before
  rw [List.getElem?_append_right le_rfl, Nat.sub_self] at here
  cases rest with
  | nil => contradiction
  | cons first rest =>
      cases here
      exact ⟨rest, by simp⟩

theorem BeamState.Open.extend (opened : state.Open groups required)
    (allowed : taskOrderAllowed state.order taskIndex required = true)
    (placed : groups[taskIndex]? = some group) (member : node ∈ group)
    (extended : extend matrix preferences state taskIndex node = some after) :
    after.Open groups required := by
  simp only [Route.extend, Option.map_eq_some_iff] at extended
  obtain ⟨edge, -, rfl⟩ := extended
  refine ⟨?_, fun index found => ?_, mem_matrixPoints placed member⟩
  rotate_left
  · by_cases here : index = taskIndex
    · simp [here]
    · simp only [Function.update_of_ne here] at found
      exact List.mem_append_left _ (opened.selected index found)
  simp only [List.map_append, List.map_cons, List.map_nil, List.filter_append]
  by_cases wanted : (taskIndex : Int) ∈ required
  · have here := taskOrderAllowed_iff.mp allowed wanted
    have one : [Int.ofNat taskIndex].filter (· ∈ required) = [(taskIndex : Int)] := by
      simp [wanted]
    have next : required[((state.order.map Int.ofNat).filter (· ∈ required)).length]? =
        some (taskIndex : Int) := here ▸ List.getElem?_idxOf wanted
    rw [one]
    exact prefix_concat opened.prefixed next
  · have one : [Int.ofNat taskIndex].filter (· ∈ required) = [] := by
      simp [wanted]
    rw [one, List.append_nil]
    exact opened.prefixed

/-- A state that has not visited every task can be extended. -/
theorem BeamState.Open.continues (opened : state.Open groups required)
    (sound : state.Sound groups n) (unfinished : n < groups.length) (distinct : required.Nodup)
    (valid : ∀ item ∈ required, ∃ index < groups.length, item = (index : Int)) :
    ∃ taskIndex < groups.length, taskIndex ∉ state.order ∧
      taskOrderAllowed state.order taskIndex required = true := by
  have left : ∃ i < groups.length, i ∉ state.order := by
    by_contra none
    push Not at none
    have within : List.range groups.length ⊆ state.order := fun i inside =>
      none i (List.mem_range.mp inside)
    have size := (List.subperm_of_subset List.nodup_range within).length_le
    rw [List.length_range, sound.length] at size
    omega
  by_cases free : ∃ i < groups.length, i ∉ state.order ∧ (i : Int) ∉ required
  · obtain ⟨i, bound, fresh, free⟩ := free
    exact ⟨i, bound, fresh, taskOrderAllowed_iff.mpr fun wanted => absurd wanted free⟩
  · -- only required tasks are left: the next of their order is not visited yet
    push Not at free
    obtain ⟨i, bound, fresh⟩ := left
    obtain ⟨rest, split⟩ := opened.prefixed
    have wanted : (i : Int) ∈ required := free i bound fresh
    have later : (i : Int) ∈ rest := by
      rw [← split, List.mem_append] at wanted
      refine wanted.resolve_left fun done => fresh ?_
      simpa using (List.mem_filter.mp done).1
    obtain ⟨next, rest, rfl⟩ := List.exists_cons_of_ne_nil (List.ne_nil_of_mem later)
    obtain ⟨j, inside, rfl⟩ := valid next (split ▸ by simp)
    have apart : (j : Int) ∉ (state.order.map Int.ofNat).filter (· ∈ required) := by
      intro done
      have parted := List.nodup_append.mp (split ▸ distinct)
      exact parted.2.2 _ done _ List.mem_cons_self rfl
    refine ⟨j, inside, fun visited => apart ?_, taskOrderAllowed_iff.mpr fun _ => ?_⟩
    · exact List.mem_filter.mpr ⟨List.mem_map_of_mem visited, decide_eq_true (split ▸ by simp)⟩
    · conv_lhs => rw [← split]
      rw [List.idxOf_append_of_notMem apart, List.idxOf_cons_self, Nat.add_zero]

theorem beamLayer_open {states results : List BeamState}
    (opened : ∀ state ∈ states, state.Open groups constraints.requiredTaskOrder)
    (layer : beamLayer groups matrix preferences constraints width states = some results) :
    ∀ state ∈ results, state.Open groups constraints.requiredTaskOrder := by
  intro after member
  obtain ⟨state, present, _, _, _, placed, inside, -, allowed, extended⟩ :=
    mem_beamLayer layer member
  exact (opened state present).extend allowed placed inside extended

theorem mapM_exists {f : α → Option β} {items : List α}
    (all : ∀ item ∈ items, ∃ result, f item = some result) :
    ∃ results, items.mapM f = some results ∧ results.length = items.length := by
  induction items with
  | nil => exact ⟨[], rfl, rfl⟩
  | cons item rest ih =>
      obtain ⟨first, found⟩ := all item List.mem_cons_self
      obtain ⟨others, mapped, size⟩ := ih fun later member => all later (List.mem_cons_of_mem _ member)
      refine ⟨first :: others, ?_, by simp [size]⟩
      simp only [List.mapM_cons, found, mapped, bind, Option.bind_some, pure]

/-- A map whose items all have results, followed by what is made of them. -/
theorem mapM_answers {f : α → Option β} {g : List β → γ} {P : γ → Prop} {items : List α}
    (all : ∀ item ∈ items, ∃ result, f item = some result)
    (holds : ∀ results, results.length = items.length → P (g results)) :
    ∃ answer, (items.mapM f >>= fun results => pure (g results)) = some answer ∧ P answer := by
  obtain ⟨results, mapped, size⟩ := mapM_exists all
  exact ⟨_, by rw [mapped]; rfl, holds results size⟩

/-- A loop whose steps all answer and keep a property, followed by what is made of its result. -/
theorem foldlM_answers {f : σ → α → Option σ} {g : σ → Option γ} {P : σ → Prop} {items : List α}
    {s : σ} (steps : ∀ s, P s → ∀ item ∈ items, ∃ t, f s item = some t ∧ P t) (start : P s)
    (answers : ∀ s, ∃ answer, g s = some answer) :
    ∃ answer, (items.foldlM f s >>= g) = some answer := by
  induction items generalizing s with
  | nil => exact answers s
  | cons item rest ih =>
      obtain ⟨next, stepped, kept⟩ := steps s start item List.mem_cons_self
      obtain ⟨answer, rest⟩ :=
        ih (fun s kept other member => steps s kept other (List.mem_cons_of_mem _ member)) kept
      refine ⟨answer, ?_⟩
      rw [List.foldlM_cons, stepped]
      exact rest

theorem beamLayer_ne_nil (preferences : PlanningPreferences) {states : List BeamState} (covered : Covers matrix groups)
    (full : [] ∉ groups) (distinct : constraints.requiredTaskOrder.Nodup)
    (valid : ∀ item ∈ constraints.requiredTaskOrder, ∃ index < groups.length, item = (index : Int))
    (opened : ∀ state ∈ states, state.Open groups constraints.requiredTaskOrder)
    (sound : ∀ state ∈ states, state.Sound groups n) (unfinished : n < groups.length)
    (started : states ≠ []) (positive : 0 < width) :
    ∃ results, beamLayer groups matrix preferences constraints width states = some results ∧
      results ≠ [] := by
  obtain ⟨state, others, rfl⟩ := List.exists_cons_of_ne_nil started
  have here : state ∈ state :: others := List.mem_cons_self
  obtain ⟨i, bound, fresh, allowed⟩ :=
    (opened state here).continues (sound state here) unfinished distinct valid
  have unselected : (state.selected i).isSome = false :=
    Bool.eq_false_iff.mpr fun found => fresh ((opened state here).selected i found)
  obtain ⟨node, rest, filled⟩ := List.exists_cons_of_ne_nil
    fun empty : groups[i] = [] => full (empty ▸ List.getElem_mem bound)
  refine mapM_answers (fun item member => ?_) fun expanded size => ?_
  · obtain ⟨source, taskIndex, node⟩ := item
    obtain ⟨present, group, placed, inside, -⟩ := mem_continuations.mp member
    obtain ⟨edge, found⟩ := covered.edge (opened _ present).previous (mem_matrixPoints placed inside)
    exact ⟨_, by simp only [extend, found, Option.map_some]; rfl⟩
  · have one := mem_continuations.mpr ⟨here, groups[i], List.getElem?_eq_getElem bound,
      filled ▸ List.mem_cons_self, by simpa using unselected, allowed⟩
    have positive' : 0 < expanded.length := size ▸ List.length_pos_of_mem one
    apply List.ne_nil_of_length_pos
    rw [List.length_take, List.length_insertionSort]
    omega

theorem beamLayers_ne_nil (preferences : PlanningPreferences) (layers : List Nat)
    {states : List BeamState} (covered : Covers matrix groups)
    (full : [] ∉ groups) (distinct : constraints.requiredTaskOrder.Nodup)
    (valid : ∀ item ∈ constraints.requiredTaskOrder, ∃ index < groups.length, item = (index : Int))
    (opened : ∀ state ∈ states, state.Open groups constraints.requiredTaskOrder)
    (sound : ∀ state ∈ states, state.Sound groups n) (bound : n + layers.length ≤ groups.length)
    (started : states ≠ []) (positive : 0 < width) :
    ∃ results, layers.foldlM (fun states _ =>
      beamLayer groups matrix preferences constraints width states) states = some results ∧
        results ≠ [] := by
  induction layers generalizing states n with
  | nil => exact ⟨states, rfl, started⟩
  | cons layer rest ih =>
      rw [List.length_cons] at bound
      obtain ⟨middle, first, more⟩ :=
        beamLayer_ne_nil preferences covered full distinct valid opened sound
          (by omega) started positive
      simp only [List.foldlM_cons, first, bind, Option.bind_some]
      exact ih (beamLayer_open opened first) (beamLayer_sound sound first) (by omega) more

theorem beamJoint_ne_nil (preferences : PlanningPreferences) (covered : Covers matrix groups) (full : [] ∉ groups)
    (distinct : constraints.requiredTaskOrder.Nodup)
    (valid : ∀ item ∈ constraints.requiredTaskOrder, ∃ index < groups.length, item = (index : Int)) :
    ∃ results, beamJoint groups matrix preferences constraints = some results ∧ results ≠ [] := by
  have opened : ∀ state ∈ [(⟨[], fun _ => none, 0, 0⟩ : BeamState)],
      state.Open groups constraints.requiredTaskOrder := by
    intro state member
    rw [List.mem_singleton.mp member]
    exact ⟨List.nil_prefix, by simp, List.mem_cons_self⟩
  have sound : ∀ state ∈ [(⟨[], fun _ => none, 0, 0⟩ : BeamState)], state.Sound groups 0 := by
    intro state member
    rw [List.mem_singleton.mp member]
    exact BeamState.sound_start
  obtain ⟨states, ran, more⟩ := beamLayers_ne_nil preferences (List.range groups.length)
    covered full distinct valid opened sound (by simp)
    (List.cons_ne_nil _ _) (by decide : 0 < 250)
  refine ⟨states.map fun state => (state.order, state.selected), ?_, by simpa using more⟩
  rw [beamJoint, ran]
  rfl

theorem baselineDistance_isSome (covered : Covers matrix groups) :
    ∃ baseline, baselineDistance groups matrix = some baseline := by
  have known : ∀ node ∈ groups.filterMap List.head?, node.matrixIndex ∈ matrixPoints groups := by
    intro node member
    obtain ⟨group, inside, first⟩ := List.mem_filterMap.mp member
    obtain ⟨i, placed⟩ := List.mem_iff_getElem?.mp inside
    exact mem_matrixPoints placed (List.mem_of_mem_head? first)
  refine foldlM_answers (P := fun walked => walked.2 ∈ matrixPoints groups)
    (fun walked point node member => ?_) List.mem_cons_self fun walked => ⟨walked.1, rfl⟩
  obtain ⟨edge, found⟩ := covered.edge point (known node member)
  exact ⟨(walked.1 + edge.distanceMeters, node.matrixIndex),
    by simp only [found, bind, Option.bind_some, pure], known node member⟩

end

/-- The joint search for the trip of a context. -/
def Context.joint (ctx : Context) (solver : RoutingSolver) (groups : List (List CandidateNode)) :
    Option (RouteEvaluation × String) :=
  optimizeJointRoute solver ctx.departure ctx.tasks groups ctx.matrix ctx.preferences
    ctx.constraints ctx.mode ctx.safetyBufferMinutes ctx.previousOrder

/-- The evaluation of some choice in some order, with the least key among all of them. -/
def LeastVisit (ctx : Context) (groups : List (List CandidateNode)) (e : RouteEvaluation) : Prop :=
  ∃ baseline, baselineDistance groups ctx.matrix = some baseline ∧
    let judged := evaluateJointOrder { ctx with baselineDistanceMeters := some baseline }
    (∃ order selected, order.Perm (List.range groups.length) ∧ Chooses groups selected ∧
      judged order selected = some e) ∧
    ∀ order selected, order.Perm (List.range groups.length) → Chooses groups selected →
      ∃ other, judged order selected = some other ∧
        evaluationKey ctx.preferences e ≤ evaluationKey ctx.preferences other

/-- Each task exactly once, at a candidate of its own group. -/
def Tour (groups : List (List CandidateNode)) (e : RouteEvaluation) : Prop :=
  e.order.Perm (List.range groups.length) ∧
    List.Forall₂ (fun (taskIndex : Nat) node => ∃ group, groups[taskIndex]? = some group ∧ node ∈ group)
      e.order e.selectedNodes

section

variable {ctx : Context} {solver : RoutingSolver} {groups : List (List CandidateNode)}
  {e : RouteEvaluation}

theorem Chooses.chosen (chooses : Chooses groups selected)
    (perm : order.Perm (List.range groups.length)) : Chosen groups order selected := by
  intro taskIndex visited
  have bound := List.mem_range.mp (perm.mem_iff.mp visited)
  have placed := List.getElem?_eq_getElem bound
  obtain ⟨node, member, picked⟩ := chooses taskIndex _ placed
  exact ⟨node, _, picked, placed, member⟩

theorem tour_of_chosen (evaluated : evaluateJointOrder ctx order selected = some e)
    (perm : order.Perm (List.range groups.length)) (chosen : Chosen groups order selected) :
    Tour groups e := by
  obtain ⟨rfl, nodes⟩ := evaluateJointOrder_nodes evaluated
  refine ⟨perm, ?_⟩
  have paired : List.Forall₂ (fun taskIndex node => selected taskIndex = some node)
      e.order e.selectedNodes := by
    have both : List.Forall₂ (· = ·) (e.order.map selected) (e.selectedNodes.map some) :=
      List.forall₂_eq_eq_eq ▸ nodes.symm
    simpa [List.forall₂_map_left_iff, List.forall₂_map_right_iff] using both
  refine List.forall₂_iff_zip.mpr ⟨paired.length_eq, fun {taskIndex node} zipped => ?_⟩
  obtain ⟨other, group, picked, placed, member⟩ := chosen taskIndex (List.of_mem_zip zipped).1
  have same := (List.forall₂_iff_zip.mp paired).2 zipped
  rw [picked, Option.some.injEq] at same
  exact ⟨group, placed, same ▸ member⟩

/-- The answers of the search are the best of its evaluations. -/
theorem joint_spec (solver : RoutingSolver) (covered : Covers ctx.matrix groups) :
    ∃ baseline, baselineDistance groups ctx.matrix = some baseline ∧
      ∀ e algorithm, ctx.joint solver groups = some (e, algorithm) ↔ ∃ found evaluations,
        searched solver { ctx with baselineDistanceMeters := some baseline } groups =
          some (found, algorithm) ∧
        found.mapM (fun (order, selected) => evaluateJointOrder
          { ctx with baselineDistanceMeters := some baseline } order selected) = some evaluations ∧
        best ctx.preferences evaluations = some e := by
  obtain ⟨baseline, measured⟩ := baselineDistance_isSome covered
  refine ⟨baseline, measured, fun e algorithm => ?_⟩
  simp only [Context.joint, optimizeJointRoute, measured, bind, Option.bind_some, pure,
    Option.bind_eq_some_iff, Option.some.injEq, Prod.mk.injEq, Prod.exists]
  constructor
  · rintro ⟨found, _, search, evaluations, mapped, _, chosen, rfl, rfl⟩
    exact ⟨found, evaluations, search, mapped, chosen⟩
  · rintro ⟨found, evaluations, search, mapped, chosen⟩
    exact ⟨found, _, search, evaluations, mapped, _, chosen, rfl, rfl⟩

/-- Exact mode evaluates every choice in every order. -/
theorem searched_exact (ctx : Context) (sized : groups.length = ctx.tasks.length) (owned : Owned groups)
    (small : isExact groups ctx.tasks.length = true)
    (search : searched solver ctx groups = some (found, algorithm)) :
    (∀ order selected, (order, selected) ∈ found →
      order.Perm (List.range groups.length) ∧ Chooses groups selected) ∧
    ∀ order selected, order.Perm (List.range groups.length) → Chooses groups selected →
      ∃ same, (order, same) ∈ found ∧ ∀ i < groups.length, same i = selected i := by
  simp only [searched, small, ↓reduceIte, Option.some.injEq, Prod.mk.injEq] at search
  obtain ⟨rfl, -⟩ := search
  rw [sized]
  constructor
  · intro order selected member
    simp only [List.mem_flatMap, List.mem_map, Prod.mk.injEq] at member
    obtain ⟨selection, chosen, _, permuted, rfl, rfl⟩ := member
    exact ⟨orderings_perm List.length_range permuted, chooses_of_product owned chosen⟩
  · intro order selected perm chooses
    obtain ⟨selection, member, same⟩ := chooses.selection owned
    refine ⟨selectionOf selection, ?_, fun i bound => same i (sized ▸ bound)⟩
    exact List.mem_flatMap.mpr ⟨selection, member, List.mem_map.mpr
      ⟨order, orderings_complete List.length_range perm, rfl⟩⟩

theorem mapM_results {f : α → Option β} {items : List α} {results : List β}
    (mapped : items.mapM f = some results) {item : α} (member : item ∈ items) :
    ∃ result ∈ results, f item = some result := by
  have paired := mapM_forall₂ mapped
  clear mapped
  induction paired with
  | nil => contradiction
  | cons found _ ih =>
      obtain rfl | later := List.mem_cons.mp member
      · exact ⟨_, List.mem_cons_self, found⟩
      · obtain ⟨result, inside, found⟩ := ih later
        exact ⟨result, List.mem_cons_of_mem _ inside, found⟩

/-- A search that found chosen orders of all the tasks is answered with one of them. -/
theorem joint_isSome (sized : groups.length = ctx.tasks.length) (covered : Covers ctx.matrix groups)
    (search : ∀ baseline, searched solver { ctx with baselineDistanceMeters := some baseline } groups =
      some (found, algorithm))
    (more : found ≠ [])
    (chosen : ∀ order selected, (order, selected) ∈ found →
      order.Perm (List.range groups.length) ∧ Chosen groups order selected) :
    ∃ e, ctx.joint solver groups = some (e, algorithm) ∧ Tour groups e := by
  obtain ⟨baseline, -, spec⟩ := joint_spec solver covered
  have each : ∀ item ∈ found, ∃ e, evaluateJointOrder
      { ctx with baselineDistanceMeters := some baseline } item.1 item.2 = some e := by
    intro item member
    obtain ⟨perm, picks⟩ := chosen item.1 item.2 member
    have known : ∀ i ∈ item.1, i < ctx.tasks.length := fun i visited =>
      sized ▸ List.mem_range.mp (perm.mem_iff.mp visited)
    exact evaluateJointOrder_isSome covered picks known
  obtain ⟨evaluations, mapped, size⟩ := mapM_exists each
  have answered : evaluations ≠ [] := by
    apply List.ne_nil_of_length_pos
    rw [size]
    exact List.length_pos_of_ne_nil more
  obtain ⟨e, least⟩ := best_isSome ctx.preferences answered
  refine ⟨e, (spec e algorithm).mpr ⟨found, evaluations, search baseline, mapped, least⟩, ?_⟩
  obtain ⟨⟨order, selected⟩, member, evaluated⟩ := mapM_mem mapped (best_mem least)
  obtain ⟨perm, picks⟩ := chosen order selected member
  exact tour_of_chosen evaluated perm picks

theorem searchLarge_beam {departure : DateTime} {tasks : List PlanningTask} {matrix : RouteMatrix}
    {preferences : PlanningPreferences} {constraints : HardConstraints}
    (unsolved : constraints.requiredTaskOrder.Perm ((List.range tasks.length).map Int.ofNat) ∨
      solver departure tasks groups matrix preferences constraints = none)
    (beam : beamJoint groups matrix preferences constraints = some found) :
    ∃ algorithm, searchLarge solver departure tasks groups matrix preferences constraints =
      some (found, algorithm) := by
  simp only [searchLarge, beam]
  split
  · rename_i answer solved
    split at solved
    · contradiction
    · rename_i free
      obtain fixed | none := unsolved
      · refine absurd ⟨by simpa using fixed.length_eq, fun item member => fixed.mem_iff.mp member,
          fun index member => fixed.mem_iff.mpr (List.mem_map_of_mem member)⟩ free
      · rw [none] at solved
        contradiction
  · exact ⟨_, rfl⟩

theorem joint_exact_isSome (sized : groups.length = ctx.tasks.length) (owned : Owned groups)
    (covered : Covers ctx.matrix groups) (small : isExact groups ctx.tasks.length = true)
    (full : [] ∉ groups) :
    ∃ e algorithm, ctx.joint solver groups = some (e, algorithm) ∧ Tour groups e := by
  have search (baseline : ℚ) :
      searched solver { ctx with baselineDistanceMeters := some baseline } groups =
        some ((product groups).flatMap fun selection =>
          (orderings ctx.tasks.length (List.range ctx.tasks.length)).map fun order =>
            (order, selectionOf selection), "joint-exact-enumeration") := by
    simp only [searched, small, ↓reduceIte]
  obtain ⟨selection, others, more⟩ := List.exists_cons_of_ne_nil (product_ne_nil full)
  have inside : selection ∈ product groups := more ▸ List.mem_cons_self
  have chosen := (searched_exact { ctx with baselineDistanceMeters := some 0 }
    sized owned small (search 0)).1
  obtain ⟨e, answered, tour⟩ := joint_isSome sized covered search
    (List.ne_nil_of_mem (List.mem_flatMap.mpr ⟨selection, inside, List.mem_map.mpr
      ⟨_, orderings_complete List.length_range (.refl _), rfl⟩⟩))
    fun order selected member => ⟨(chosen order selected member).1,
      (chosen order selected member).2.chosen (chosen order selected member).1⟩
  exact ⟨e, _, answered, tour⟩

theorem joint_beam_isSome (sized : groups.length = ctx.tasks.length)
    (covered : Covers ctx.matrix groups) (large : isExact groups ctx.tasks.length = false)
    (unsolved : ctx.constraints.requiredTaskOrder.Perm ((List.range groups.length).map Int.ofNat) ∨
      solver ctx.departure ctx.tasks groups ctx.matrix ctx.preferences ctx.constraints = none)
    (distinct : ctx.constraints.requiredTaskOrder.Nodup)
    (valid : ∀ item ∈ ctx.constraints.requiredTaskOrder,
      ∃ index < groups.length, item = (index : Int)) (full : [] ∉ groups) :
    ∃ e algorithm, ctx.joint solver groups = some (e, algorithm) ∧ Tour groups e := by
  obtain ⟨found, beam, more⟩ := beamJoint_ne_nil ctx.preferences covered full distinct valid
  obtain ⟨algorithm, large'⟩ := searchLarge_beam (sized ▸ unsolved) beam
  have search (baseline : ℚ) :
      searched solver { ctx with baselineDistanceMeters := some baseline } groups =
        some (found, algorithm) := by
    simp only [searched, large, Bool.false_eq_true, ↓reduceIte, large']
  obtain ⟨e, answered, tour⟩ := joint_isSome sized covered search more
    fun order selected member => beamJoint_sound beam member
  exact ⟨e, algorithm, answered, tour⟩

end

/-- Two stops, the second with two candidates, in the order of the user. -/
def pairTrip : Context where
  departure := ⟨0, 0⟩
  tasks := [{ description := "breakfast" }, { description := "museum" }]
  matrix := ⟨List.replicate 4 (List.replicate 4 ⟨600, 500, 1⟩)⟩
  preferences := {}
  constraints := { requiredTaskOrder := [1, 0] }
  mode := .walking

def pairGroups : List (List CandidateNode) :=
  [[⟨0, 0, 1, none, 1, none, none, none, none⟩],
    [⟨1, 0, 2, some 3, 1, none, none, none, none⟩, ⟨1, 1, 3, some 5, 1, none, none, none, none⟩]]

end MapGo.Route
