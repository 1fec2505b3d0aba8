import MapGo.Patch.Replan

/-! The operations of a replan against the stops it chose. Removals, moves and
replacements are applied one by one and find stops by POI id, so they encode the
chosen stops in every order exactly when the ids they look for stay unambiguous. -/
namespace MapGo.Patch

open MapGo.ListEdit MapGo.Route

/-- What a replan decides about one stop of the base plan. -/
structure Decision where
  source : Stop
  kept : Bool
  replacement : Option (Poi × ReplacementReason) := none

namespace Decision

def sourceId (decision : Decision) : String := decision.source.poi.id

/-- The stop that the plan is to have. -/
def chosen (decision : Decision) : Stop :=
  match decision.replacement with
  | some (poi, _) => { decision.source with poi := poi, candidateRank := 0 }
  | none => decision.source

def item (decision : Decision) : Item := ⟨decision.sourceId, decision.chosen⟩

def record (decision : Decision) : Option ReplacementRecord :=
  decision.replacement.map fun (poi, reason) => ⟨decision.sourceId, poi.id, reason⟩

def changed (decision : Decision) : Bool := decision.replacement.isSome

/-- The edit of the replace operation: the task stays that of the stop it lands on. -/
def edit (decision : Decision) : Stop → Stop :=
  decision.chosen.asReplacement.settle decision.chosen.poi

theorem edit_source (decision : Decision) (change : decision.changed = true) :
    decision.edit decision.source = decision.chosen := by
  obtain ⟨source, kept, replacement⟩ := decision
  cases replacement with
  | none => contradiction
  | some replacement => rfl

theorem chosen_of_unchanged (decision : Decision) (same : decision.changed = false) :
    decision.chosen = decision.source := by
  obtain ⟨source, kept, replacement⟩ := decision
  cases replacement with
  | none => rfl
  | some replacement => contradiction

theorem chosen_taskIndex (decision : Decision) :
    decision.chosen.taskIndex = decision.source.taskIndex := by
  simp only [chosen]
  split <;> rfl

theorem chosen_task (decision : Decision) : decision.chosen.task = decision.source.task := by
  simp only [chosen]
  split <;> rfl

end Decision

def keptDecisions (decisions : List Decision) : List Decision :=
  decisions.filter Decision.kept

/-- The operations on the stops for a chosen order of the kept ones. -/
def encode (decisions ordered : List Decision) : List Operation :=
  structureOperations (decisions.map Decision.source) (decisions.filterMap Decision.record)
    ((keptDecisions decisions).map Decision.item) (ordered.map Decision.item)

/-- A stop per task, substitutes with a new id, and something left to visit. -/
structure WellFormed (decisions : List Decision) : Prop where
  tasks : (decisions.map fun decision => decision.source.taskIndex).Nodup
  renames : ∀ decision ∈ decisions, decision.changed = true →
    decision.chosen.poi.id ≠ decision.sourceId
  occupied : keptDecisions decisions ≠ []

/-- What a stop commits to: its task and its POI. -/
def Stop.assignment (stop : Stop) : Int × PlanningTask × Poi := (stop.taskIndex, stop.task, stop.poi)

/-- The patch applies without an error and yields the chosen stops. -/
def Faithful (snapshot : Snapshot) (switches : List Operation)
    (decisions ordered : List Decision) : Prop :=
  ∃ patched stops, applyPatchStructure snapshot (encode decisions ordered ++ switches) =
      .ok (patched, stops) ∧
    stops.map Stop.assignment = ordered.map fun decision => decision.chosen.assignment

/-- Kept stops are told apart from each other and from the removed ones. -/
structure Addressable (decisions : List Decision) : Prop where
  distinct : ((keptDecisions decisions).map Decision.sourceId).Nodup
  separate : ∀ removed ∈ decisions, removed.kept = false →
    ∀ decision ∈ keptDecisions decisions, removed.sourceId ≠ decision.sourceId

/-- Moreover no substitute has the id of a stop that is itself replaced. -/
structure Encodable (decisions : List Decision) : Prop extends Addressable decisions where
  unchained : ∀ earlier ∈ keptDecisions decisions, ∀ later ∈ keptDecisions decisions,
    earlier.changed = true → later.changed = true → earlier.chosen.poi.id ≠ later.sourceId

/-- Later replacements of an order that still look for an id taken by an earlier one. -/
def Chained (earlier later : Decision) : Prop :=
  Clash (fun stop : Stop => stop.poi.id) Decision.source Decision.chosen Decision.changed
    earlier later

section

variable {snapshot : Snapshot} {decisions ordered : List Decision} {stops : List Stop}
  {result : Snapshot × List Stop} {base chosen : TransportMode} {departure current : DateTime}

/-! ### The three blocks -/

theorem removes_ok_iff {activeIds : List String} :
    (removeOperations stops activeIds).foldlM applyOperation (snapshot, stops) = .ok result ↔
      result = (snapshot, stops.filter (·.poi.id ∈ activeIds)) := by
  have gone := removeEach (fun stop : Stop => stop.poi.id) (fun id => decide (id ∉ activeIds))
    stops [] (by simp)
  have shape : removeOperations stops activeIds =
      ((stops.filter fun stop => decide (stop.poi.id ∉ activeIds)).map fun stop =>
        stop.poi.id).map fun id => Operation.removeStop (some id) := by
    simp [removeOperations]
  rw [shape, fold_ok_iff (fun id stops => removeFirst (fun stop : Stop => stop.poi.id) id stops)
    (fun id stops result => remove_ok_iff)]
  simp only [List.nil_append] at gone
  rw [gone]
  simp

theorem moves_ok_iff {moves : List (Nat × Nat)} :
    (moves.map fun (source, target) => Operation.moveStop (some source) (some target)).foldlM
        applyOperation (snapshot, stops) = .ok result ↔
      (∀ move ∈ moves, move.1 < stops.length ∧ move.2 < stops.length) ∧
        result = (snapshot, applyMoves stops moves) := by
  induction moves generalizing stops with
  | nil => simp [applyMoves, pure, Except.pure, eq_comm]
  | cons move moves ih =>
      simp only [List.map_cons, List.foldlM_cons, bind_eq_ok, move_ok_iff, List.forall_mem_cons,
        applyMoves, List.foldl_cons]
      constructor
      · rintro ⟨state, ⟨inside, rfl⟩, rest⟩
        obtain ⟨bounds, rfl⟩ := ih.mp rest
        have same := (moveTo_perm stops move.1 inside.2).length_eq
        exact ⟨⟨inside, fun later member => same ▸ bounds later member⟩, rfl⟩
      · rintro ⟨⟨inside, bounds⟩, rfl⟩
        have same := (moveTo_perm stops move.1 inside.2).length_eq
        exact ⟨_, ⟨inside, rfl⟩, ih.mpr ⟨fun later member => same ▸ bounds later member, rfl⟩⟩

theorem asReplacement_edit (stop : Stop) :
    stop.asReplacement.edit = some (stop.asReplacement.settle stop.poi) := rfl

/-- The replace operations of the decisions that have a record. -/
theorem replaces_ok_iff {records : List ReplacementRecord} :
    (replaceOperations records (ordered.map Decision.item)).foldlM applyOperation
        (snapshot, stops) = .ok result ↔
      ∃ after, replaceEach (fun stop : Stop => stop.poi.id) Decision.source Decision.edit
          (ordered.filter fun decision => records.any (·.sourceStopId = decision.sourceId)) stops =
            some after ∧ result = (snapshot, after) := by
  have shape : replaceOperations records (ordered.map Decision.item) =
      (ordered.filter fun decision => records.any (·.sourceStopId = decision.sourceId)).map
        fun decision => Operation.replaceStop (some decision.sourceId)
          (some decision.chosen.asReplacement) := by
    simp only [replaceOperations, List.filter_map, List.map_map]
    rfl
  rw [shape]
  exact fold_ok_iff _ (fun decision stops result =>
    replace_ok_iff (asReplacement_edit (Decision.chosen decision))) _ _

/-- The switches never fail and leave the stops alone. -/
theorem switches_ok (base chosen : TransportMode) (departure current : DateTime)
    (snapshot : Snapshot) (stops : List Stop) :
    ∃ patched, (switchOperations base chosen departure current).foldlM applyOperation
      (snapshot, stops) = .ok (patched, stops) := by
  simp only [switchOperations]
  split <;> split <;> exact ⟨_, rfl⟩

theorem fold_encode_ok_iff (same : snapshot.stops = decisions.map Decision.source) :
    (encode decisions ordered).foldlM applyOperation (snapshot, snapshot.stops) = .ok result ↔
      ∃ after,
        (moveOperations (((decisions.map Decision.source).filter
            (·.poi.id ∈ (keptDecisions decisions).map Decision.sourceId)).map fun stop => stop.poi.id)
          (ordered.map Decision.item)).foldlM applyOperation
            (snapshot, (decisions.map Decision.source).filter
              (·.poi.id ∈ (keptDecisions decisions).map Decision.sourceId)) = .ok after ∧
          (replaceOperations (decisions.filterMap Decision.record)
            (ordered.map Decision.item)).foldlM applyOperation after = .ok result := by
  have ids : ((keptDecisions decisions).map Decision.item).map Item.sourceId =
      (keptDecisions decisions).map Decision.sourceId := by
    simp [Decision.item, Function.comp_def]
  rw [encode, structureOperations, ids, fold_append_ok, same]
  simp only [removes_ok_iff, exists_eq_left, fold_append_ok]

theorem faithful_iff :
    Faithful snapshot (switchOperations base chosen departure current) decisions ordered ↔
      ∃ state, (encode decisions ordered).foldlM applyOperation (snapshot, snapshot.stops) =
          .ok state ∧ state.2 ≠ [] ∧
        state.2.map Stop.assignment = ordered.map fun decision => decision.chosen.assignment := by
  simp only [Faithful, applyPatchStructure_ok_iff, fold_append_ok]
  constructor
  · rintro ⟨patched, stops, ⟨⟨state, encoded, switched⟩, occupied⟩, wanted⟩
    obtain ⟨patched', switches⟩ := switches_ok base chosen departure current state.1 state.2
    cases switched.symm.trans switches
    exact ⟨state, encoded, occupied, wanted⟩
  · rintro ⟨state, encoded, occupied, wanted⟩
    obtain ⟨patched, switches⟩ := switches_ok base chosen departure current state.1 state.2
    exact ⟨patched, state.2, ⟨⟨state, encoded, switches⟩, occupied⟩, wanted⟩

/-! ### Addressable stops -/

theorem filter_kept (addressable : Addressable decisions) :
    (decisions.map Decision.source).filter
        (·.poi.id ∈ (keptDecisions decisions).map Decision.sourceId) =
      (keptDecisions decisions).map Decision.source := by
  rw [List.filter_map]
  refine congrArg (List.map Decision.source) (List.filter_congr fun decision inside => ?_)
  change decide (decision.sourceId ∈ (keptDecisions decisions).map Decision.sourceId) =
    decision.kept
  rw [Bool.eq_iff_iff, decide_eq_true_eq, List.mem_map]
  constructor
  · rintro ⟨other, member, shared⟩
    by_contra gone
    exact addressable.separate decision inside (by simpa using gone) other member shared.symm
  · intro kept
    exact ⟨decision, List.mem_filter.mpr ⟨inside, kept⟩, rfl⟩

/-- A kept stop has a record exactly when its own POI is replaced. -/
theorem recorded_iff (addressable : Addressable decisions) {decision : Decision}
    (kept : decision ∈ keptDecisions decisions) :
    (decisions.filterMap Decision.record).any (·.sourceStopId = decision.sourceId) =
      decision.changed := by
  rw [Bool.eq_iff_iff, List.any_eq_true]
  constructor
  · rintro ⟨record, recorded, same⟩
    obtain ⟨other, inside, made⟩ := List.mem_filterMap.mp recorded
    obtain ⟨replacement, replaced, rfl⟩ := Option.map_eq_some_iff.mp made
    replace same : other.sourceId = decision.sourceId := by simpa using same
    have keeps : other.kept = true := by
      by_contra removed
      exact addressable.separate other inside (by simpa using removed) decision kept same
    have equal := List.inj_on_of_nodup_map addressable.distinct
      (List.mem_filter.mpr ⟨inside, keeps⟩) kept same
    rw [← equal, Decision.changed, replaced]
    rfl
  · intro change
    obtain ⟨replacement, replaced⟩ := Option.isSome_iff_exists.mp change
    refine ⟨⟨decision.sourceId, replacement.1.id, replacement.2⟩, ?_, by simp⟩
    exact List.mem_filterMap.mpr ⟨decision, List.mem_of_mem_filter kept, by
      rw [Decision.record, replaced]
      rfl⟩

/-- Removals and moves bring the kept stops into the chosen order; the replacements follow. -/
theorem fold_encode_addressable (same : snapshot.stops = decisions.map Decision.source)
    (addressable : Addressable decisions) (all : ordered.Perm (keptDecisions decisions)) :
    (encode decisions ordered).foldlM applyOperation (snapshot, snapshot.stops) = .ok result ↔
      ∃ after, replaceEach (fun stop : Stop => stop.poi.id) Decision.source Decision.edit
          (ordered.filter Decision.changed) (ordered.map Decision.source) = some after ∧
        result = (snapshot, after) := by
  have keys : ((keptDecisions decisions).map Decision.source).map (fun stop => stop.poi.id) =
      (keptDecisions decisions).map Decision.sourceId := by
    simp only [List.map_map]
    rfl
  have wanted : (ordered.map Decision.item).map Item.sourceId =
      (ordered.map Decision.source).map fun stop => stop.poi.id := by
    simp only [List.map_map]
    rfl
  have arranged := applyMoves_arrange (fun stop : Stop => stop.poi.id)
    (keys ▸ addressable.distinct) (all.symm.map Decision.source)
  have recorded : (ordered.filter fun decision => (decisions.filterMap Decision.record).any
      (·.sourceStopId = decision.sourceId)) = ordered.filter Decision.changed :=
    List.filter_congr fun decision inside => recorded_iff addressable (all.mem_iff.mp inside)
  simp only [fold_encode_ok_iff same, filter_kept addressable, moveOperations, wanted,
    moves_ok_iff, arranged.1]
  constructor
  · rintro ⟨_, ⟨-, rfl⟩, replaced⟩
    rwa [replaces_ok_iff, recorded] at replaced
  · intro replaced
    rw [← recorded, ← replaces_ok_iff] at replaced
    exact ⟨_, ⟨arranged.2, rfl⟩, replaced⟩

theorem faithful_iff_unchained (same : snapshot.stops = decisions.map Decision.source)
    (shape : WellFormed decisions) (addressable : Addressable decisions)
    (all : ordered.Perm (keptDecisions decisions)) :
    Faithful snapshot (switchOperations base chosen departure current) decisions ordered ↔
      ordered.Pairwise fun earlier later => ¬ Chained earlier later := by
  rw [faithful_iff]
  simp only [fold_encode_addressable same addressable all]
  constructor
  · rintro ⟨_, ⟨stops, replaced, rfl⟩, -, wanted⟩
    have keys : stops.map (fun stop : Stop => stop.poi.id) =
        ([] ++ ordered.map Decision.chosen).map fun stop : Stop => stop.poi.id := by
      have ids := congrArg (List.map fun assignment => assignment.2.2.id) wanted
      simpa [List.map_map, Function.comp_def, Stop.assignment] using ids
    refine (no_clash_of_replaceEach Decision.edit_source Decision.chosen_of_unchanged
      (fun decision inside change => ?_) ?_ replaced keys).2
    · exact shape.renames decision (List.mem_of_mem_filter (all.mem_iff.mp inside)) change
    · exact ((all.map Decision.sourceId).nodup_iff).mpr addressable.distinct
  · intro apart
    have replaced := replaceEach_of_no_clash Decision.edit_source Decision.chosen_of_unchanged []
      (by simp) apart
    refine ⟨_, ⟨_, replaced, rfl⟩, ?_, by simp⟩
    intro empty
    obtain rfl : ordered = [] := by simpa using empty
    exact shape.occupied all.nil_eq.symm

/-! ### Ambiguous ids -/

theorem moves_perm {working : List String} {items : List Item} {middle : Snapshot × List Stop}
    (moved : (moveOperations working items).foldlM applyOperation (snapshot, stops) =
      .ok middle) : middle.2.Perm stops := by
  obtain ⟨bounds, rfl⟩ := moves_ok_iff.mp moved
  exact applyMoves_perm stops fun move inside => (bounds move inside).2

theorem replaces_tasks {records : List ReplacementRecord} {middle : Snapshot × List Stop}
    (replaced : (replaceOperations records (ordered.map Decision.item)).foldlM applyOperation
      middle = .ok result) : result.2.map Stop.taskIndex = middle.2.map Stop.taskIndex := by
  obtain ⟨after, folded, rfl⟩ := replaces_ok_iff.mp replaced
  have kept (decision : Decision) (stop : Stop) :
      (decision.edit stop).taskIndex = stop.taskIndex := rfl
  exact replaceEach_map kept folded

/-- A faithful patch leaves no removed stop behind. -/
theorem separate_of_faithful (same : snapshot.stops = decisions.map Decision.source)
    (all : ordered.Perm (keptDecisions decisions))
    (faithful : Faithful snapshot (switchOperations base chosen departure current) decisions
      ordered) {removed decision : Decision} (inside : removed ∈ decisions)
    (gone : removed.kept = false) (kept : decision ∈ keptDecisions decisions) :
    removed.sourceId ≠ decision.sourceId := by
  obtain ⟨state, encoded, -, wanted⟩ := faithful_iff.mp faithful
  obtain ⟨middle, moved, replaced⟩ := (fold_encode_ok_iff same).mp encoded
  have length : (decisions.filter fun decision =>
      decide (decision.sourceId ∈ (keptDecisions decisions).map Decision.sourceId)).length =
        (keptDecisions decisions).length := by
    calc _ = ((decisions.map Decision.source).filter
              (·.poi.id ∈ (keptDecisions decisions).map Decision.sourceId)).length := by
            rw [List.filter_map, List.length_map]
            rfl
      _ = middle.2.length := (moves_perm moved).length_eq.symm
      _ = state.2.length := by
            simpa using congrArg List.length (replaces_tasks replaced).symm
      _ = ordered.length := by simpa using congrArg List.length wanted
      _ = _ := all.length_eq
  intro shared
  have more : (keptDecisions decisions).Sublist (decisions.filter fun decision =>
      decide (decision.sourceId ∈ (keptDecisions decisions).map Decision.sourceId)) := by
    have both : keptDecisions decisions = (decisions.filter fun decision =>
        decide (decision.sourceId ∈ (keptDecisions decisions).map Decision.sourceId)).filter
          Decision.kept := by
      rw [List.filter_filter]
      refine List.filter_congr fun decision inside => ?_
      cases kept : decision.kept with
      | false => rfl
      | true =>
          have member : decision ∈ keptDecisions decisions := List.mem_filter.mpr ⟨inside, kept⟩
          simpa using List.mem_map_of_mem (f := Decision.sourceId) member
    have part := List.filter_sublist (p := Decision.kept) (l := decisions.filter fun decision =>
      decide (decision.sourceId ∈ (keptDecisions decisions).map Decision.sourceId))
    rwa [← both] at part
  have member : removed ∈ keptDecisions decisions := by
    rw [more.eq_of_length length.symm]
    exact List.mem_filter.mpr ⟨inside, by
      simpa [shared] using List.mem_map_of_mem (f := Decision.sourceId) kept⟩
  simpa [gone] using (List.mem_filter.mp member).2

/-- Kept stops with one id in two orders get the same tasks, so one order is wrong. -/
theorem distinct_of_faithful (same : snapshot.stops = decisions.map Decision.source)
    (shape : WellFormed decisions)
    (faithful : ∀ ordered : List Decision, ordered.Perm (keptDecisions decisions) →
      Faithful snapshot (switchOperations base chosen departure current) decisions ordered) :
    ((keptDecisions decisions).map Decision.sourceId).Nodup := by
  by_contra shared
  obtain ⟨first, second, rest, perm, id⟩ := duplicate_of_not_nodup shared
  obtain ⟨state, encoded, -, wanted⟩ := faithful_iff.mp (faithful (first :: second :: rest) perm.symm)
  obtain ⟨state', encoded', -, wanted'⟩ := faithful_iff.mp
    (faithful (second :: first :: rest) ((List.Perm.swap first second rest).trans perm.symm))
  obtain ⟨middle, moved, replaced⟩ := (fold_encode_ok_iff same).mp encoded
  obtain ⟨middle', moved', replaced'⟩ := (fold_encode_ok_iff same).mp encoded'
  obtain rfl : middle = middle' := by
    simp only [moveOperations, List.map_cons, Decision.item, id] at moved moved'
    exact Except.ok.inj (moved.symm.trans moved')
  have tasks := congrArg (List.map fun assignment => assignment.1) wanted
  have tasks' := congrArg (List.map fun assignment => assignment.1) wanted'
  simp only [List.map_map, Function.comp_def, Stop.assignment, Decision.chosen_taskIndex,
    List.map_cons] at tasks tasks'
  rw [replaces_tasks replaced] at tasks
  rw [replaces_tasks replaced'] at tasks'
  have equal : first.source.taskIndex = second.source.taskIndex :=
    (List.cons.inj (tasks.symm.trans tasks')).1
  have distinct : ((first :: second :: rest).map fun decision => decision.source.taskIndex).Nodup :=
    ((perm.map _).nodup_iff).mp (shape.tasks.sublist (List.filter_sublist.map _))
  exact (List.nodup_cons.mp distinct).1 (List.mem_cons.mpr (.inl equal))

/-- With unambiguous ids no replacement takes an id that a later one looks for. -/
theorem Encodable.apart (encodable : Encodable decisions)
    (all : ordered.Perm (keptDecisions decisions)) :
    ordered.Pairwise fun earlier later => ¬ Chained earlier later := by
  have distinct : ordered.Pairwise fun earlier later => earlier.sourceId ≠ later.sourceId :=
    List.pairwise_map.mp ((all.map Decision.sourceId).nodup_iff.mpr encodable.distinct)
  refine distinct.imp_of_mem fun {earlier later} first second other => ?_
  rintro ⟨change', taken⟩
  cases change : earlier.changed with
  | false =>
      simp only [Decision.chosen_of_unchanged earlier change] at taken
      exact other taken
  | true =>
      exact encodable.unchained earlier (all.mem_iff.mp first) later (all.mem_iff.mp second)
        change change' taken

/-- The switches leave the intent alone but for its transport mode. -/
theorem switches_intent (chosen : TransportMode) (departure current : DateTime)
    (snapshot : Snapshot) (stops : List Stop) :
    ∃ patched, (switchOperations snapshot.intent.transportMode chosen departure current).foldlM
        applyOperation (snapshot, stops) = .ok (patched, stops) ∧
      patched.intent = { snapshot.intent with transportMode := chosen } := by
  by_cases same : chosen = snapshot.intent.transportMode
  · subst same
    simp only [switchOperations]
    split <;> split <;> exact ⟨_, rfl, rfl⟩
  · simp only [switchOperations, ne_eq, same, not_false_eq_true, ↓reduceIte]
    split <;> exact ⟨_, rfl, rfl⟩

/-- An encodable patch yields exactly the chosen stops. -/
theorem encode_applied (same : snapshot.stops = decisions.map Decision.source)
    (encodable : Encodable decisions) (all : ordered.Perm (keptDecisions decisions))
    (occupied : ordered ≠ []) (chosen : TransportMode) (departure current : DateTime) :
    ∃ patched, applyPatchStructure snapshot (encode decisions ordered ++
        switchOperations snapshot.intent.transportMode chosen departure current) =
          .ok (patched, ordered.map Decision.chosen) ∧
      patched.intent = { snapshot.intent with transportMode := chosen } := by
  have replaced := replaceEach_of_no_clash Decision.edit_source Decision.chosen_of_unchanged []
    (by simp) (encodable.apart all)
  obtain ⟨patched, switched, intent⟩ :=
    switches_intent chosen departure current snapshot (ordered.map Decision.chosen)
  refine ⟨patched, applyPatchStructure_ok_iff.mpr ⟨?_, by simpa using occupied⟩, intent⟩
  exact (fold_append_ok ..).mpr ⟨_, (fold_encode_addressable same encodable.toAddressable all).mpr
    ⟨_, replaced, rfl⟩, switched⟩

end

/-! A closed stop moves to the POI of the next stop, which is closed as well: the second
replacement lands on the first stop again. -/

def chainedStop (taskIndex : Int) (id : String) : Stop where
  taskIndex := taskIndex
  task := { description := "参观" }
  poi := { id := id, location := ⟨0, 0⟩ }

def chainedPlan : List Decision :=
  [⟨chainedStop 0 "A", true, some ({ id := "B", location := ⟨0, 0⟩ }, .poiClosed)⟩,
    ⟨chainedStop 1 "B", true, some ({ id := "C", location := ⟨0, 0⟩ }, .poiClosed)⟩]

def chainedSnapshot : Snapshot where
  departureTime := some ⟨0, 0⟩
  intent := { tasks := [] }
  stops := chainedPlan.map Decision.source

theorem chainedPlan_wellFormed : WellFormed chainedPlan :=
  ⟨by decide, by decide, by decide⟩

end MapGo.Patch
