import MapGo.Precedence
import MapGo.Route.Search

/-! The orders of the beam against those that the final check accepts. The beam reads the required
order from its start, the check compares the places of the tasks that occur in it. -/
namespace MapGo.Route

open MapGo.Precedence

/-- The continuations of a layer's states, before any is cut. -/
def continuations (groups : List (List CandidateNode)) (required : List Int)
    (states : List BeamState) : List (BeamState × Nat × CandidateNode) :=
  states.flatMap fun state => groups.zipIdx.flatMap fun (group, taskIndex) =>
    if (state.selected taskIndex).isSome ∨ ¬ taskOrderAllowed state.order taskIndex required then []
    else group.map fun node => (state, taskIndex, node)

/-- The states of `_beam_joint` after some layers, with any width. -/
def beamLayers (groups : List (List CandidateNode)) (matrix : RouteMatrix)
    (preferences : PlanningPreferences) (constraints : HardConstraints) (beamWidth layers : Nat) :
    Option (List BeamState) :=
  (List.range layers).foldlM
    (fun states _ => beamLayer groups matrix preferences constraints beamWidth states)
    [⟨[], fun _ => none, 0, 0⟩]

/-- The beam is wide enough for every layer. -/
def Uncut (groups : List (List CandidateNode)) (matrix : RouteMatrix)
    (preferences : PlanningPreferences) (constraints : HardConstraints) (beamWidth : Nat) : Prop :=
  ∀ layers < groups.length, ∀ states,
    beamLayers groups matrix preferences constraints beamWidth layers = some states →
    (continuations groups constraints.requiredTaskOrder states).length ≤ beamWidth

/-- Each task of an order was allowed after those before it. -/
def AllowedAlong (required : List Int) (order : List Nat) : Prop :=
  ∀ before taskIndex after, order = before ++ taskIndex :: after →
    taskOrderAllowed before taskIndex required = true

def places (order : List Nat) : List Int := order.map Int.ofNat

variable {groups : List (List CandidateNode)} {matrix : RouteMatrix}
  {preferences : PlanningPreferences} {constraints : HardConstraints} {width n : Nat}
  {required : List Int} {order : List Nat} {states results : List BeamState}

theorem places_nodup (distinct : order.Nodup) : (places order).Nodup :=
  distinct.map Int.ofNat_injective

/-- An order is allowed along where its required tasks are the start of the required list. -/
theorem allowedAlong_iff (distinct : order.Nodup) :
    AllowedAlong required order ↔ (places order).filter (· ∈ required) <+: required := by
  constructor
  · intro allowed
    induction order using List.reverseRecOn with
    | nil => exact List.nil_prefix
    | append_singleton before taskIndex ih =>
        have earlier := ih (List.nodup_append.mp distinct).1 fun first task rest split =>
          allowed first task (rest ++ [taskIndex]) (by rw [split, List.append_assoc]; rfl)
        have here := taskOrderAllowed_iff.mp (allowed before taskIndex [] rfl)
        rw [places, List.map_append, List.filter_append]
        by_cases wanted : (taskIndex : Int) ∈ required
        · have one : ([taskIndex].map Int.ofNat).filter (· ∈ required) = [(taskIndex : Int)] := by
            simp [wanted]
          rw [one]
          exact prefix_concat earlier (here wanted ▸ List.getElem?_idxOf wanted)
        · have one : ([taskIndex].map Int.ofNat).filter (· ∈ required) = [] := by
            simp [wanted]
          rw [one, List.append_nil]
          exact earlier
  · rintro ⟨rest, split⟩ before taskIndex after rfl
    apply taskOrderAllowed_iff.mpr
    intro wanted
    have listed : decide (Int.ofNat taskIndex ∈ required) = true := decide_eq_true wanted
    rw [places, List.map_append, List.map_cons, List.filter_append, List.filter_cons,
      if_pos listed, List.append_assoc] at split
    apply idxOf_split _ split.symm
    intro earlier
    obtain ⟨other, inside, same⟩ := List.mem_map.mp (List.mem_filter.mp earlier).1
    obtain rfl := Int.ofNat_injective same
    exact (List.nodup_append.mp distinct).2.2 _ inside _ List.mem_cons_self rfl

/-- The orders of the states after some layers of an uncut beam. -/
structure Complete (groups : List (List CandidateNode)) (required : List Int) (n : Nat)
    (states : List BeamState) : Prop where
  sound : ∀ state ∈ states, state.Sound groups n
  opened : ∀ state ∈ states, state.Open groups required
  orders : ∀ order, (∃ state ∈ states, state.order = order) ↔
    order.length = n ∧ order.Nodup ∧ (∀ i ∈ order, i < groups.length) ∧ AllowedAlong required order

theorem complete_start : Complete groups required 0 [⟨[], fun _ => none, 0, 0⟩] := by
  constructor
  · intro state only
    rw [List.mem_singleton.mp only]
    exact BeamState.sound_start
  · intro state only
    rw [List.mem_singleton.mp only]
    exact ⟨List.nil_prefix, by simp, List.mem_cons_self⟩
  · intro order
    constructor
    · rintro ⟨state, only, rfl⟩
      rw [List.mem_singleton.mp only]
      refine ⟨rfl, List.nodup_nil, by simp, ?_⟩
      intro before taskIndex after split
      simp at split
    · rintro ⟨empty, -⟩
      rw [List.eq_nil_of_length_eq_zero empty]
      exact ⟨_, List.mem_singleton_self _, rfl⟩

/-- A layer of an uncut beam keeps every continuation. -/
theorem mem_uncut {state : BeamState} {taskIndex : Nat} {node : CandidateNode} {after : BeamState}
    (layer : beamLayer groups matrix preferences constraints width states = some results)
    (wide : (continuations groups constraints.requiredTaskOrder states).length ≤ width)
    (continued : (state, taskIndex, node) ∈
      continuations groups constraints.requiredTaskOrder states)
    (extended : extend matrix preferences state taskIndex node = some after) : after ∈ results := by
  simp only [beamLayer, bind, Option.bind_eq_some_iff, pure, Option.some.injEq] at layer
  obtain ⟨expanded, mapped, rfl⟩ := layer
  have size : expanded.length ≤ width := by
    rw [← (mapM_forall₂ mapped).length_eq]
    exact wide
  obtain ⟨found, inside, same⟩ := mapM_results mapped continued
  obtain rfl := Option.some.inj (extended.symm.trans same)
  rw [List.take_of_length_le (by rwa [List.length_insertionSort])]
  exact (List.perm_insertionSort _ _).mem_iff.mpr inside

theorem Complete.layer (complete : Complete groups constraints.requiredTaskOrder n states)
    (filled : [] ∉ groups) (covered : Covers matrix groups)
    (wide : (continuations groups constraints.requiredTaskOrder states).length ≤ width)
    (layer : beamLayer groups matrix preferences constraints width states = some results) :
    Complete groups constraints.requiredTaskOrder (n + 1) results := by
  refine ⟨beamLayer_sound complete.sound layer, beamLayer_open complete.opened layer, ?_⟩
  intro order
  constructor
  · rintro ⟨after, member, rfl⟩
    have sound := beamLayer_sound complete.sound layer after member
    obtain ⟨state, present, taskIndex, node, group, placed, -, -, allowed, extended⟩ :=
      mem_beamLayer layer member
    have before := (complete.orders state.order).mp ⟨state, present, rfl⟩
    refine ⟨sound.length, sound.nodup, ?_, ?_⟩
    · intro i visited
      obtain ⟨node, group, -, there, -⟩ := sound.chosen i visited
      exact (List.getElem?_eq_some_iff.mp there).1
    · obtain ⟨edge, -, rfl⟩ := Option.map_eq_some_iff.mp extended
      intro first task rest split
      rcases List.eq_nil_or_concat rest with rfl | ⟨rest, last, rfl⟩
      · obtain ⟨rfl, same⟩ := List.append_inj' split rfl
        rw [← List.singleton_inj.mp same]
        exact allowed
      · rw [List.concat_eq_append, ← List.cons_append, ← List.append_assoc] at split
        exact before.2.2.2 first task rest (List.append_inj' split rfl).1
  · rintro ⟨size, distinct, known, allowed⟩
    rcases List.eq_nil_or_concat order with rfl | ⟨before, taskIndex, rfl⟩
    · contradiction
    · rw [List.concat_eq_append] at size distinct known allowed ⊢
      have apart := List.nodup_append.mp distinct
      obtain ⟨state, present, rfl⟩ := (complete.orders before).mpr ⟨by simpa using size, apart.1,
        fun i visited => known i (List.mem_append_left _ visited),
        fun first task rest split => allowed first task (rest ++ [taskIndex]) (by
          rw [split, List.append_assoc]
          rfl)⟩
      have bound := known taskIndex (List.mem_append_right _ (List.mem_singleton_self _))
      have placed := List.getElem?_eq_getElem bound
      have opened := complete.opened state present
      have unvisited : taskIndex ∉ state.order := fun visited =>
        apart.2.2 taskIndex visited taskIndex (List.mem_singleton_self _) rfl
      have fresh : state.selected taskIndex = none := by
        by_contra chosen
        exact unvisited (opened.selected taskIndex (Option.isSome_iff_ne_none.mpr chosen))
      obtain ⟨node, others, group⟩ := List.exists_cons_of_ne_nil fun empty : groups[taskIndex] = [] =>
        filled (empty ▸ List.getElem_mem bound)
      have member : node ∈ groups[taskIndex] := group ▸ List.mem_cons_self
      obtain ⟨edge, travelled⟩ := covered.edge opened.previous (mem_matrixPoints placed member)
      have extended := congrArg (Option.map fun edge : RouteEdge => (BeamState.mk
        (state.order ++ [taskIndex]) (Function.update state.selected taskIndex (some node))
        node.matrixIndex (state.score + edgeScore preferences edge node))) travelled
      have continued := mem_continuations.mpr
        ⟨present, groups[taskIndex], placed, member, fresh, allowed state.order taskIndex [] rfl⟩
      exact ⟨_, mem_uncut layer wide continued extended, rfl⟩

/-- A layer finds an edge for every continuation. -/
theorem beamLayer_isSome (preferences : PlanningPreferences) (width : Nat)
    (covered : Covers matrix groups)
    (opened : ∀ state ∈ states, state.Open groups constraints.requiredTaskOrder) :
    ∃ results, beamLayer groups matrix preferences constraints width states = some results := by
  have answered : ∃ results,
      beamLayer groups matrix preferences constraints width states = some results ∧ True := by
    refine mapM_answers (fun item member => ?_) fun expanded size => trivial
    obtain ⟨source, taskIndex, node⟩ := item
    obtain ⟨present, group, placed, inside, -⟩ := mem_continuations.mp member
    obtain ⟨edge, found⟩ := covered.edge (opened _ present).previous (mem_matrixPoints placed inside)
    exact ⟨_, by simp only [extend, found, Option.map_some]; rfl⟩
  obtain ⟨results, layer, -⟩ := answered
  exact ⟨results, layer⟩

/-- Layer by layer an uncut beam keeps all allowed orders. -/
theorem beamLayers_complete (filled : [] ∉ groups) (covered : Covers matrix groups)
    (uncut : Uncut groups matrix preferences constraints width) :
    ∀ layers ≤ groups.length, ∃ states,
      beamLayers groups matrix preferences constraints width layers = some states ∧
      Complete groups constraints.requiredTaskOrder layers states := by
  intro layers
  induction layers with
  | zero => exact fun _ => ⟨_, rfl, complete_start⟩
  | succ layers ih =>
      intro inside
      obtain ⟨states, ran, complete⟩ := ih (Nat.le_of_succ_le inside)
      obtain ⟨results, layer⟩ := beamLayer_isSome preferences width covered complete.opened
      refine ⟨results, ?_, complete.layer filled covered (uncut layers inside states ran) layer⟩
      unfold beamLayers at ran ⊢
      rw [List.range_succ, List.foldlM_append, ran]
      simp only [bind, Option.bind_some, List.foldlM_cons, List.foldlM_nil, layer]
      rfl

/-- `_beam_joint` with its width. -/
def beamSearch (groups : List (List CandidateNode)) (matrix : RouteMatrix)
    (preferences : PlanningPreferences) (constraints : HardConstraints) (beamWidth : Nat) :
    Option (List (List Nat × Selection)) := do
  let states ← beamLayers groups matrix preferences constraints beamWidth groups.length
  return states.map fun state => (state.order, state.selected)

theorem perm_range_iff {count : Nat} : order.Perm (List.range count) ↔
    order.length = count ∧ order.Nodup ∧ ∀ i ∈ order, i < count := by
  constructor
  · intro perm
    refine ⟨by rw [perm.length_eq, List.length_range], perm.nodup_iff.mpr List.nodup_range, ?_⟩
    intro i visited
    exact List.mem_range.mp (perm.mem_iff.mp visited)
  · rintro ⟨size, distinct, known⟩
    have within : order ⊆ List.range count := fun i visited => List.mem_range.mpr (known i visited)
    apply (List.subperm_of_subset distinct within).perm_of_length_le
    rw [List.length_range, size]

theorem mem_places_of_perm {count : Nat} (perm : order.Perm (List.range count)) (item : Int) :
    item ∈ places order ↔ item ∈ places (List.range count) :=
  (perm.map Int.ofNat).mem_iff

/-- The complete orders that the final check accepts. -/
theorem accepted_iff {count : Nat} (perm : order.Perm (List.range count)) :
    relativeOrderSatisfied order required = true ↔
      Ranked (places order) required ∧ Grouped (places (List.range count)) required := by
  have distinct := places_nodup (perm.nodup_iff.mpr List.nodup_range)
  rw [relativeOrderSatisfied_iff]
  apply (placed_iff distinct).trans
  apply and_congr_right'
  constructor
  · exact Grouped.congr fun item => (mem_places_of_perm perm item).symm
  · exact Grouped.congr (mem_places_of_perm perm)

/-- The complete orders that an uncut beam yields. -/
theorem yielded_iff {count : Nat} (perm : order.Perm (List.range count)) :
    AllowedAlong required order ↔
      Ranked (places order) required ∧ Leads (places (List.range count)) required := by
  have distinct := perm.nodup_iff.mpr List.nodup_range
  rw [allowedAlong_iff distinct, prefix_iff (places_nodup distinct)]
  apply and_congr_right'
  constructor
  · exact Leads.congr fun item => (mem_places_of_perm perm item).symm
  · exact Leads.congr (mem_places_of_perm perm)

/-- Some complete order has the required tasks in the order of their first entries. -/
theorem exists_ranked (count : Nat) (required : List Int) :
    ∃ order, order.Perm (List.range count) ∧ Ranked (places order) required := by
  let ahead : Nat → Nat → Prop := fun a b => required.idxOf (a : Int) ≤ required.idxOf (b : Int)
  have total : Std.Total ahead := ⟨fun _ _ => Nat.le_total _ _⟩
  have trans : IsTrans Nat ahead := ⟨fun _ _ _ first second => Nat.le_trans first second⟩
  have perm := List.perm_insertionSort ahead (List.range count)
  refine ⟨_, perm, ?_⟩
  have sorted := List.pairwise_insertionSort ahead (List.range count)
  have distinct : (List.insertionSort ahead (List.range count)).Nodup :=
    perm.nodup_iff.mpr List.nodup_range
  apply List.pairwise_map.mpr
  apply (sorted.and distinct).imp
  rintro a b ⟨le, apart⟩ left right
  apply lt_of_le_of_ne le
  intro same
  exact apart (Int.ofNat_injective ((List.idxOf_inj left).mp same))

/-- The beam yields exactly the complete orders that the final check accepts. -/
def YieldsAccepted (groups : List (List CandidateNode)) (matrix : RouteMatrix)
    (preferences : PlanningPreferences) (constraints : HardConstraints) (beamWidth : Nat) : Prop :=
  ∃ found, beamSearch groups matrix preferences constraints beamWidth = some found ∧
    ∀ order, (∃ selected, (order, selected) ∈ found) ↔
      order.Perm (List.range groups.length) ∧
        relativeOrderSatisfied order constraints.requiredTaskOrder = true

/-- A beam that cuts nothing yields exactly the complete orders that the final check accepts, if
and only if the required list leads with its tasks exactly when it groups them. -/
theorem beam_agrees_iff (groups : List (List CandidateNode)) (matrix : RouteMatrix)
    (preferences : PlanningPreferences) (constraints : HardConstraints) (width : Nat)
    (filled : [] ∉ groups) (covered : Covers matrix groups)
    (uncut : Uncut groups matrix preferences constraints width) :
    YieldsAccepted groups matrix preferences constraints width ↔
    (Leads (places (List.range groups.length)) constraints.requiredTaskOrder ↔
      Grouped (places (List.range groups.length)) constraints.requiredTaskOrder) := by
  obtain ⟨states, ran, complete⟩ := beamLayers_complete filled covered uncut _ le_rfl
  have search : beamSearch groups matrix preferences constraints width =
      some (states.map fun state => (state.order, state.selected)) := by
    rw [beamSearch, ran]
    rfl
  have yields (order : List Nat) :
      (∃ selected, (order, selected) ∈ states.map fun state => (state.order, state.selected)) ↔
        order.Perm (List.range groups.length) ∧
          AllowedAlong constraints.requiredTaskOrder order := by
    rw [perm_range_iff, and_assoc, and_assoc, ← complete.orders order]
    constructor
    · rintro ⟨selected, member⟩
      obtain ⟨state, present, same⟩ := List.mem_map.mp member
      exact ⟨state, present, (Prod.mk.inj same).1⟩
    · rintro ⟨state, present, rfl⟩
      exact ⟨state.selected, List.mem_map_of_mem present⟩
  constructor
  · rintro ⟨found, other, exactly⟩
    obtain rfl := Option.some.inj (search.symm.trans other)
    obtain ⟨order, perm, ranked⟩ := exists_ranked groups.length constraints.requiredTaskOrder
    have same := (yields order).symm.trans (exactly order)
    rw [yielded_iff perm, accepted_iff perm] at same
    simpa [perm, ranked] using same
  · intro agree
    refine ⟨_, search, fun order => (yields order).trans (and_congr_right fun perm => ?_)⟩
    rw [yielded_iff perm, accepted_iff perm, agree]

/-- One candidate for each task, a minute between all points. -/
def lineGroups (count : Nat) : List (List CandidateNode) :=
  (List.range count).map fun i => [singleNode i]

def lineMatrix : RouteMatrix := ⟨List.replicate 3 (List.replicate 3 ⟨60, 60, 1⟩)⟩

theorem uncut_of_all (wide : ∀ layers < groups.length,
    (beamLayers groups matrix preferences constraints width layers).all (fun states =>
      decide ((continuations groups constraints.requiredTaskOrder states).length ≤ width)) = true) :
    Uncut groups matrix preferences constraints width := by
  intro layers inside states ran
  have sized := wide layers inside
  rw [ran] at sized
  exact of_decide_eq_true sized

theorem beam_agrees_iff_swapped :
    YieldsAccepted (lineGroups 2) lineMatrix {} { requiredTaskOrder := [1, 0] } 250 := by
  have covered : Covers lineMatrix (lineGroups 2) := by
    unfold Covers
    decide +kernel
  apply (beam_agrees_iff (lineGroups 2) lineMatrix {} { requiredTaskOrder := [1, 0] } 250
    (by decide +kernel) covered (uncut_of_all (by decide +kernel))).mpr
  unfold Leads Grouped
  decide +kernel

/-- An index without a task ahead of a task leaves the beam without an order; a repeated task
makes it yield an order that is rejected. -/
theorem beam_disagrees :
    Uncut (lineGroups 1) lineMatrix {} { requiredTaskOrder := [5, 0] } 250 ∧
    ¬ YieldsAccepted (lineGroups 1) lineMatrix {} { requiredTaskOrder := [5, 0] } 250 ∧
    Uncut (lineGroups 2) lineMatrix {} { requiredTaskOrder := [0, 1, 0] } 250 ∧
    ¬ YieldsAccepted (lineGroups 2) lineMatrix {} { requiredTaskOrder := [0, 1, 0] } 250 := by
  have nothing : (beamSearch (lineGroups 1) lineMatrix {} { requiredTaskOrder := [5, 0] } 250).map
      (fun found => found.map Prod.fst) = some [] := by decide +kernel
  have rejected : (beamSearch (lineGroups 2) lineMatrix {} { requiredTaskOrder := [0, 1, 0] }
      250).map (fun found => found.map Prod.fst) = some [[0, 1]] := by decide +kernel
  refine ⟨uncut_of_all (by decide +kernel), ?_, uncut_of_all (by decide +kernel), ?_⟩
  · rintro ⟨found, search, exactly⟩
    rw [search] at nothing
    have empty : found.map Prod.fst = [] := Option.some.inj nothing
    obtain ⟨selected, member⟩ := (exactly [0]).mpr (by decide +kernel)
    have inside := List.mem_map_of_mem (f := Prod.fst) member
    rw [empty] at inside
    contradiction
  · rintro ⟨found, search, exactly⟩
    rw [search] at rejected
    have only : found.map Prod.fst = [[0, 1]] := Option.some.inj rejected
    have inside : [0, 1] ∈ found.map Prod.fst := by
      rw [only]
      exact List.mem_singleton_self _
    obtain ⟨choice, member, same⟩ := List.mem_map.mp inside
    have accepted := ((exactly [0, 1]).mp ⟨choice.2, by rw [← same]; exact member⟩).2
    exact absurd accepted (by decide +kernel)

end MapGo.Route
