import MapGo.Patch.Encoding

/-! The created patches of `create_pending_replan`: each encodes decisions about the
stops of its base plan, one for every stop, in an order of the kept ones. -/
namespace MapGo.Patch

open MapGo.Route

theorem substitute_cases {provider : MapProvider} {request : PendingReplanRequest}
    {closed : List String} {item after : Item} {record : Option ReplacementRecord}
    (substituted : substitute provider request closed item = some (after, record)) :
    (after = item ∧ record = none) ∨ ∃ poi reason, poi.id ≠ item.stop.poi.id ∧
      after = ⟨item.sourceId, { item.stop with poi := poi, candidateRank := 0 }⟩ ∧
      record = some ⟨item.sourceId, poi.id, reason⟩ := by
  simp only [substitute, replacementCandidates, bind, pure] at substituted
  split at substituted
  · cases substituted
    exact .inl ⟨rfl, rfl⟩
  · obtain ⟨found, searched, substituted⟩ := Option.bind_eq_some_iff.mp substituted
    obtain ⟨candidates, -, selected⟩ := Option.bind_eq_some_iff.mp searched
    cases found with
    | none =>
        cases substituted
        exact .inl ⟨rfl, rfl⟩
    | some replacement =>
        obtain ⟨poi, first, rfl⟩ := Option.map_eq_some_iff.mp (Option.some.inj selected)
        cases substituted
        have other := List.find?_some first
        exact .inr ⟨poi, _, by simpa using other, rfl, rfl⟩

theorem fastest_mem {solved : List Solved} {chosen : Solved} (least : fastest solved = some chosen) :
    chosen ∈ solved := by
  cases solved with
  | nil => contradiction
  | cons first rest =>
      obtain rfl := Option.some.inj least
      clear least
      induction rest generalizing first with
      | nil => exact List.mem_singleton_self _
      | cons item rest ih =>
          simp only [List.foldl_cons]
          split
          · exact List.mem_cons_of_mem _ (ih item)
          · obtain same | later := List.mem_cons.mp (ih first)
            · exact List.mem_cons.mpr (.inl same)
            · exact List.mem_cons_of_mem _ (List.mem_cons_of_mem _ later)

theorem choose_mem {base : TransportMode} {request : PendingReplanRequest}
    {solved : List Solved} {entry : Solved}
    (chosen : choose base request solved = some entry) : entry ∈ solved := by
  simp only [choose] at chosen
  split at chosen
  · rename_i preferred found
    split at chosen
    · exact fastest_mem chosen
    · cases chosen
      exact List.mem_of_find?_eq_some found
  · exact fastest_mem chosen

theorem attempts_mem {base : TransportMode} {items active : List Item} {mode : TransportMode} {dropOptional : Bool}
    (attempt : (mode, dropOptional, active) ∈ attempts base items) :
    activeItems items dropOptional = some active := by
  have made := List.mem_of_mem_take attempt
  simp only [List.mem_flatMap, List.mem_filterMap, Option.map_eq_some_iff, Prod.mk.injEq] at made
  obtain ⟨mode', -, dropOptional', -, active', chosen, rfl, rfl, rfl⟩ := made
  exact chosen

/-- The decision that the replacement loop and the dropping of optional tasks make. -/
def decisionOf (provider : MapProvider) (request : PendingReplanRequest) (closed : List String)
    (dropOptional : Bool) (stop : Stop) : Decision :=
  if stop.poi.id ∈ request.completedStopIds then ⟨stop, false, none⟩
  else
    let kept := !dropOptional || stop.task.required
    match substitute provider request closed ⟨stop.poi.id, stop⟩ with
    | some (item, some record) => ⟨stop, kept, some (item.stop.poi, record.reason)⟩
    | _ => ⟨stop, kept, none⟩

section

variable {provider : MapProvider} {request : PendingReplanRequest} {closed : List String}
  {dropOptional : Bool} {stop : Stop}

theorem decisionOf_source :
    (decisionOf provider request closed dropOptional stop).source = stop := by
  simp only [decisionOf]
  split
  · rfl
  · split <;> rfl

theorem decisionOf_completed (done : stop.poi.id ∈ request.completedStopIds) :
    decisionOf provider request closed dropOptional stop = ⟨stop, false, none⟩ := by
  simp [decisionOf, done]

theorem decisionOf_remaining (dropOptional : Bool) (open' : stop.poi.id ∉ request.completedStopIds) {item : Item}
    {record : Option ReplacementRecord}
    (substituted : substitute provider request closed ⟨stop.poi.id, stop⟩ = some (item, record)) :
    (decisionOf provider request closed dropOptional stop).item = item ∧
      (decisionOf provider request closed dropOptional stop).record = record ∧
      (decisionOf provider request closed dropOptional stop).kept =
        (!dropOptional || item.stop.task.required) := by
  simp only [decisionOf, open', ↓reduceIte, substituted]
  obtain ⟨rfl, rfl⟩ | ⟨poi, reason, -, rfl, rfl⟩ := substitute_cases substituted
  · exact ⟨rfl, rfl, rfl⟩
  · exact ⟨rfl, rfl, rfl⟩

theorem decisionOf_renames
    (change : (decisionOf provider request closed dropOptional stop).changed = true) :
    (decisionOf provider request closed dropOptional stop).chosen.poi.id ≠ stop.poi.id := by
  simp only [decisionOf] at change ⊢
  split at change
  · contradiction
  · rename_i open'
    simp only [open', ↓reduceIte]
    cases substituted : substitute provider request closed ⟨stop.poi.id, stop⟩ with
    | none => simp [substituted, Decision.changed] at change
    | some pair =>
        obtain ⟨item, record⟩ := pair
        obtain ⟨rfl, rfl⟩ | ⟨poi, reason, renamed, rfl, rfl⟩ := substitute_cases substituted
        · simp [substituted, Decision.changed] at change
        · exact renamed

/-- The decisions list the remaining items, their records and the kept ones among them. -/
theorem decisions_of_substituted {stops : List Stop}
    {substituted : List (Item × Option ReplacementRecord)}
    (mapped : (remainingItems stops request.completedStopIds).mapM
      (substitute provider request closed) = some substituted) :
    (stops.map (decisionOf provider request closed dropOptional)).filterMap Decision.record =
        substituted.filterMap Prod.snd ∧
      (keptDecisions (stops.map (decisionOf provider request closed dropOptional))).map
          Decision.item =
        (substituted.map Prod.fst).filter fun item => !dropOptional || item.stop.task.required := by
  induction stops generalizing substituted with
  | nil =>
      obtain rfl : substituted = [] := by simpa [remainingItems, eq_comm] using mapped
      exact ⟨rfl, rfl⟩
  | cons stop stops ih =>
      by_cases done : stop.poi.id ∈ request.completedStopIds
      · have skipped : remainingItems (stop :: stops) request.completedStopIds =
            remainingItems stops request.completedStopIds := by
          simp [remainingItems, done]
        rw [skipped] at mapped
        obtain ⟨records, kept⟩ := ih mapped
        rw [List.map_cons, decisionOf_completed done]
        exact ⟨records, kept⟩
      · have next : remainingItems (stop :: stops) request.completedStopIds =
            ⟨stop.poi.id, stop⟩ :: remainingItems stops request.completedStopIds := by
          simp [remainingItems, done]
        simp only [next, List.mapM_cons, bind, Option.bind_eq_some_iff, pure, Option.some.injEq]
          at mapped
        obtain ⟨⟨item, record⟩, first, others, rest, rfl⟩ := mapped
        obtain ⟨records, kept⟩ := ih rest
        obtain ⟨made, recorded, keeps⟩ := decisionOf_remaining dropOptional done
          first
        constructor
        · rw [List.map_cons, List.filterMap_cons, List.filterMap_cons, recorded, records]
        · simp only [keptDecisions, List.map_cons, List.filter_cons, keeps] at kept ⊢
          split <;> simp [made, kept]

end

theorem activeItems_eq {items active : List Item} {dropOptional : Bool}
    (chosen : activeItems items dropOptional = some active) :
    active = items.filter fun item => !dropOptional || item.stop.task.required := by
  cases dropOptional with
  | false => simpa [activeItems, eq_comm] using chosen
  | true =>
      simp only [activeItems, ↓reduceIte, Bool.not_true, Bool.false_or] at chosen ⊢
      split at chosen
      · contradiction
      · exact (Option.some.inj chosen).symm

theorem activeItems_occupied {items active : List Item} {dropOptional : Bool} (remain : items ≠ [])
    (chosen : activeItems items dropOptional = some active) : active ≠ [] := by
  cases dropOptional with
  | false =>
      obtain rfl : items = active := by simpa [activeItems] using chosen
      exact remain
  | true =>
      simp only [activeItems, ↓reduceIte] at chosen
      split at chosen
      · contradiction
      · rename_i occupied
        obtain rfl := Option.some.inj chosen
        exact fun empty => occupied (.inr empty)

/-- How a created patch came about: the substitutes, the chosen attempt and what encodes it. -/
structure Proposal (solver : RoutingSolver) (provider : MapProvider) (trip : TripSession)
    (request : PendingReplanRequest) (snapshot : Snapshot) (operations : List Operation)
    (impact : Impact) (alternatives : List Alternative) where
  substituted : List (Item × Option ReplacementRecord)
  chosen : Solved
  departure : DateTime
  remains : remainingItems snapshot.stops request.completedStopIds ≠ []
  mapped : (remainingItems snapshot.stops request.completedStopIds).mapM (substitute provider
    request (closedIds request.eventType request.eventPayload
      ((remainingItems snapshot.stops request.completedStopIds).map Item.stop))) = some substituted
  active : activeItems (substituted.map Prod.fst) chosen.dropOptional = some chosen.active
  solved : solveAttempt solver provider request chosen.mode chosen.dropOptional chosen.active =
    some chosen
  feasible : chosen.evaluation.feasible = true
  departs : snapshot.departureTime = some departure
  encodes : operations = structureOperations snapshot.stops (substituted.filterMap Prod.snd)
    chosen.active chosen.ordered ++
      switchOperations snapshot.intent.transportMode chosen.mode departure request.currentTime
  reports : impact = replanImpact trip request snapshot request.completedStopIds
    (substituted.filterMap Prod.snd) alternatives chosen

theorem solveAttempt_fields {solver : RoutingSolver} {provider : MapProvider}
    {request : PendingReplanRequest} {mode : TransportMode} {dropOptional : Bool}
    {active : List Item} {solved : Solved}
    (attempt : solveAttempt solver provider request mode dropOptional active = some solved) :
    solved.mode = mode ∧ solved.dropOptional = dropOptional ∧ solved.active = active := by
  simp only [solveAttempt, bind, Option.bind_eq_some_iff, pure] at attempt
  obtain ⟨matrix, -, ⟨evaluation, algorithm⟩, -, made⟩ := attempt
  cases made
  exact ⟨rfl, rfl, rfl⟩

theorem replanSnapshot_created {solver : RoutingSolver} {provider : MapProvider}
    {trip : TripSession} {request : PendingReplanRequest} {snapshot : Snapshot}
    {operations : List Operation} {impact : Impact} {alternatives : List Alternative}
    (created : replanSnapshot solver provider trip request snapshot =
      .ok (.created operations impact alternatives)) :
    Nonempty (Proposal solver provider trip request snapshot operations impact alternatives) := by
  simp only [replanSnapshot] at created
  split at created
  · contradiction
  · rename_i remains
    simp only [bind_eq_ok, orRaise_eq_ok] at created
    obtain ⟨substituted, mapped, options, attempted, created⟩ := created
    split at created
    · cases created
    · rename_i chosen chose
      simp only [bind_eq_ok, orRaise_eq_ok] at created
      obtain ⟨departure, departs, created⟩ := created
      split at created
      · cases created
      · cases created
        obtain ⟨option, feasible⟩ := List.mem_filter.mp (choose_mem chose)
        obtain ⟨⟨mode, dropOptional, active⟩, attempt, solved⟩ := mapM_mem attempted option
        obtain ⟨rfl, rfl, rfl⟩ := solveAttempt_fields solved
        exact ⟨⟨substituted, chosen, departure, remains, mapped, attempts_mem attempt, solved,
          feasible, departs, rfl, rfl⟩⟩

theorem createPendingReplan_created {solver : RoutingSolver} {maxReplansPerTrip : Nat}
    {provider : MapProvider} {versions : List PlanVersion} {patches : List PlanPatch}
    {trip : TripSession} {request : PendingReplanRequest} {operations : List Operation}
    {impact : Impact} {alternatives : List Alternative}
    (answered : createPendingReplan solver maxReplansPerTrip provider versions patches trip
      request = .ok (.created operations impact alternatives)) :
    ∃ version ∈ versions, version.version = trip.currentPlanVersion ∧
      replanSnapshot solver provider trip request version.snapshot =
        .ok (.created operations impact alternatives) := by
  simp only [createPendingReplan] at answered
  split at answered
  · cases answered
  · split at answered
    · cases answered
    · rename_i version found
      split at answered
      · cases answered
      · exact ⟨version, List.mem_of_find?_eq_some found, by simpa using List.find?_some found,
          answered⟩

theorem filterMap_range (xs : List α) : (List.range xs.length).filterMap (xs[·]?) = xs := by
  induction xs with
  | nil => rfl
  | cons x xs ih =>
      rw [List.length_cons, List.range_succ_eq_map, List.filterMap_cons, List.filterMap_map]
      exact congrArg (x :: ·) ih

/-- The tasks of a created patch are visited in the order of the solver. -/
theorem solveAttempt_order {solver : RoutingSolver} {provider : MapProvider}
    {request : PendingReplanRequest} {mode : TransportMode} {dropOptional : Bool}
    {active : List Item} {solved : Solved} (complete : solver.Complete)
    (attempt : solveAttempt solver provider request mode dropOptional active = some solved) :
    solved.evaluation.order.Perm (List.range active.length) := by
  simp only [solveAttempt, bind, Option.bind_eq_some_iff, pure] at attempt
  obtain ⟨matrix, -, ⟨evaluation, algorithm⟩, optimized, made⟩ := attempt
  cases made
  obtain ⟨order, baseline, perm, evaluated⟩ := optimizeRoute_spec complete optimized
  simp only [evaluateJointOrder, bind, Option.bind_eq_some_iff, pure] at evaluated
  obtain ⟨walk, -, back, -, made⟩ := evaluated
  cases made
  simpa using perm

section

variable {solver : RoutingSolver} {provider : MapProvider} {trip : TripSession}
  {request : PendingReplanRequest} {snapshot : Snapshot} {operations : List Operation}
  {impact : Impact} {alternatives : List Alternative}

/-- The decisions behind a proposal. -/
def Proposal.decisions (proposal : Proposal solver provider trip request snapshot operations
    impact alternatives) : List Decision :=
  snapshot.stops.map (decisionOf provider request (closedIds request.eventType
    request.eventPayload ((remainingItems snapshot.stops request.completedStopIds).map Item.stop))
      proposal.chosen.dropOptional)

/-- The kept decisions in the order of the solver. -/
def Proposal.ordered (proposal : Proposal solver provider trip request snapshot operations
    impact alternatives) : List Decision :=
  proposal.chosen.evaluation.order.filterMap ((keptDecisions proposal.decisions)[·]?)

variable (proposal : Proposal solver provider trip request snapshot operations impact alternatives)

theorem Proposal.sources : snapshot.stops = proposal.decisions.map Decision.source := by
  simp [Proposal.decisions, Function.comp_def, decisionOf_source]

theorem Proposal.active_eq :
    (keptDecisions proposal.decisions).map Decision.item = proposal.chosen.active := by
  rw [activeItems_eq proposal.active]
  exact (decisions_of_substituted proposal.mapped).2

theorem Proposal.ordered_item :
    proposal.ordered.map Decision.item = proposal.chosen.ordered := by
  rw [Proposal.ordered, Solved.ordered, ← proposal.active_eq, List.map_filterMap]
  simp only [List.getElem?_map]

theorem Proposal.ordered_perm (complete : solver.Complete) :
    proposal.ordered.Perm (keptDecisions proposal.decisions) := by
  have perm := solveAttempt_order complete proposal.solved
  rw [← proposal.active_eq, List.length_map] at perm
  exact (perm.filterMap _).trans (.of_eq (filterMap_range _))

/-- Some stop is kept. -/
theorem Proposal.occupied : keptDecisions proposal.decisions ≠ [] := by
  have remain : proposal.substituted.map Prod.fst ≠ [] := by
    intro empty
    have mapped := proposal.mapped
    rw [List.map_eq_nil_iff.mp empty] at mapped
    cases items : remainingItems snapshot.stops request.completedStopIds with
    | nil => exact proposal.remains items
    | cons item items' =>
        rw [items] at mapped
        simp [List.mapM_cons, Option.bind_eq_some_iff] at mapped
  have active := activeItems_occupied remain proposal.active
  rw [← proposal.active_eq] at active
  exact fun empty => active (by rw [empty]; rfl)

theorem Proposal.wellFormed (tasks : (snapshot.stops.map Stop.taskIndex).Nodup) :
    WellFormed proposal.decisions where
  tasks := by
    have same := congrArg (List.map Stop.taskIndex) proposal.sources
    rw [List.map_map] at same
    exact same ▸ tasks
  renames := by
    intro decision inside change
    obtain ⟨stop, -, rfl⟩ := List.mem_map.mp inside
    rw [Decision.sourceId, decisionOf_source]
    exact decisionOf_renames change
  occupied := proposal.occupied

/-- The operations of a created patch encode the decisions behind it. -/
theorem Proposal.operations_eq : operations =
    encode proposal.decisions proposal.ordered ++ switchOperations
      snapshot.intent.transportMode proposal.chosen.mode proposal.departure request.currentTime := by
  have records : proposal.decisions.filterMap Decision.record =
      proposal.substituted.filterMap Prod.snd := (decisions_of_substituted proposal.mapped).1
  refine proposal.encodes.trans ?_
  rw [encode, proposal.ordered_item, proposal.active_eq, ← proposal.sources, records]

end

end MapGo.Patch
