import MapGo.Patch.Versioning

/-! What a patch leaves of the planning obligations. A stop stands for a task of the plan, named by
its index; an operation takes such a pair away with its stop, and none comes from anywhere else. -/
namespace MapGo.Patch

open MapGo.ListEdit MapGo.Route

def Stop.obligation (stop : Stop) : Int × PlanningTask := (stop.taskIndex, stop.task)

def Operation.isRemoval : Operation → Bool
  | .removeStop _ => true
  | _ => false

/-- The stop that a removal takes out. -/
def Operation.removed (stops : List Stop) : Operation → Option Stop
  | .removeStop stopId => (stopPosition stopId stops).bind fun i => stops[i]?
  | _ => none

/-- The stops that the removals of a patch take out, each from the stops it finds. -/
def removedStops (state : Snapshot × List Stop) : List Operation → List Stop
  | [] => []
  | operation :: rest =>
      match applyOperation state operation with
      | .error _ => []
      | .ok next => (operation.removed state.2).toList ++ removedStops next rest

/-- What each kind of operation may do to the stops. -/
def Operation.Keeps (before after : List Stop) : Operation → Prop
  | .removeStop stopId => ∃ i stop, before[i]? = some stop ∧ some stop.poi.id = stopId ∧
      after = before.eraseIdx i
  | .moveStop _ _ => after.Perm before
  | .replaceStop _ _ => after.map Stop.obligation = before.map Stop.obligation
  | .changeTransportMode _ => after = before
  | .changeDepartureTime _ => after = before

variable {state after : Snapshot × List Stop} {operation : Operation} {stops : List Stop}

theorem stopPosition_getElem? {stopId : Option String} {i : Nat}
    (found : stopPosition stopId stops = some i) :
    ∃ stop, stops[i]? = some stop ∧ some stop.poi.id = stopId := by
  obtain ⟨id, rfl, here⟩ := Option.bind_eq_some_iff.mp found
  obtain ⟨inside, same, -⟩ := List.findIdx?_eq_some_iff_getElem.mp here
  exact ⟨stops[i], List.getElem?_eq_getElem inside, congrArg some (of_decide_eq_true same)⟩

/-- A valid replacement keeps the task of the stop it replaces, whatever task it carries. -/
theorem Replacement.edit_obligation {replacement : Replacement} {edit : Stop → Stop}
    (valid : replacement.edit = some edit) (stop : Stop) :
    (edit stop).obligation = stop.obligation := by
  unfold Replacement.edit at valid
  split at valid
  · cases valid
    rfl
  · contradiction

theorem modify_obligation {edit : Stop → Stop} (kept : ∀ stop, (edit stop).obligation = stop.obligation)
    (i : Nat) : (stops.modify i edit).map Stop.obligation = stops.map Stop.obligation := by
  apply List.ext_getElem?
  intro j
  rw [List.getElem?_map, List.getElem?_map, List.getElem?_modify]
  split
  · cases stops[j]? with
    | none => rfl
    | some stop => exact congrArg some (kept stop)
  · cases stops[j]? <;> rfl

theorem applyOperation_keeps (applied : applyOperation state operation = .ok after) :
    operation.Keeps state.2 after.2 := by
  cases operation with
  | removeStop stopId =>
      simp only [applyOperation] at applied
      split at applied
      next => contradiction
      next i found =>
        cases applied
        obtain ⟨stop, here, same⟩ := stopPosition_getElem? found
        exact ⟨i, stop, here, same, rfl⟩
  | moveStop source target =>
      cases source with
      | none => contradiction
      | some source =>
        cases target with
        | none => contradiction
        | some target =>
          obtain ⟨⟨-, inside⟩, rfl⟩ := move_ok_iff.mp applied
          exact moveTo_perm state.2 source inside
  | replaceStop stopId replacement =>
      simp only [applyOperation] at applied
      split at applied
      next => contradiction
      next i found =>
        split at applied
        next => contradiction
        next edit valid =>
          cases applied
          obtain ⟨replacement, rfl, valid⟩ := Option.bind_eq_some_iff.mp valid
          exact modify_obligation (Replacement.edit_obligation valid) i
  | changeTransportMode mode =>
      cases mode with
      | none => contradiction
      | some mode =>
          cases applied
          rfl
  | changeDepartureTime departure =>
      cases departure with
      | aware time =>
          cases applied
          rfl
      | missing => contradiction
      | unreadable => contradiction
      | naive => contradiction

/-- One operation gives away the obligation of the stop it removes and keeps the others. -/
theorem applyOperation_obligations (applied : applyOperation state operation = .ok after) :
    (after.2.map Stop.obligation ++
      (operation.removed state.2).toList.map Stop.obligation).Perm
        (state.2.map Stop.obligation) ∧
    (operation.removed state.2).isSome = operation.isRemoval := by
  have keeps := applyOperation_keeps applied
  have unremoved {pairs before : List (Int × PlanningTask)} (perm : pairs.Perm before) :
      (pairs ++ (none : Option Stop).toList.map Stop.obligation).Perm before := by
    rw [Option.toList_none, List.map_nil, List.append_nil]
    exact perm
  cases operation with
  | removeStop stopId =>
      simp only [applyOperation] at applied
      split at applied
      next => contradiction
      next i found =>
        cases applied
        obtain ⟨stop, here, -⟩ := stopPosition_getElem? found
        have taken : Operation.removed state.2 (.removeStop stopId) = some stop := by
          rw [Operation.removed, found, Option.bind_some, here]
        rw [taken]
        obtain ⟨inside, rfl⟩ := List.getElem?_eq_some_iff.mp here
        refine ⟨List.Perm.trans ?_ ((List.getElem_cons_eraseIdx_perm inside).map Stop.obligation),
          rfl⟩
        exact List.perm_append_singleton _ _
  | moveStop source target => exact ⟨unremoved (keeps.map Stop.obligation), rfl⟩
  | replaceStop stopId replacement => exact ⟨unremoved (List.Perm.of_eq keeps), rfl⟩
  | changeTransportMode mode =>
      exact ⟨unremoved (List.Perm.of_eq (congrArg (List.map Stop.obligation) keeps)), rfl⟩
  | changeDepartureTime departure =>
      exact ⟨unremoved (List.Perm.of_eq (congrArg (List.map Stop.obligation) keeps)), rfl⟩

/-- What the operations of a run leave and what they take away is what was there. -/
theorem foldlM_obligations {operations : List Operation}
    (ran : operations.foldlM applyOperation state = .ok after) :
    (after.2.map Stop.obligation ++ (removedStops state operations).map Stop.obligation).Perm
        (state.2.map Stop.obligation) ∧
    (removedStops state operations).length = operations.countP Operation.isRemoval := by
  induction operations generalizing state with
  | nil =>
      cases ran
      exact ⟨List.Perm.of_eq (List.append_nil _), rfl⟩
  | cons operation rest ih =>
      rw [List.foldlM_cons] at ran
      obtain ⟨middle, applied, ran⟩ := bind_eq_ok.mp ran
      obtain ⟨others, size⟩ := ih ran
      obtain ⟨here, one⟩ := applyOperation_obligations applied
      have taken : removedStops state (operation :: rest) =
          (operation.removed state.2).toList ++ removedStops middle rest := by
        rw [removedStops, applied]
      rw [taken]
      constructor
      · rw [List.map_append]
        have swapped (kept taken later : List (Int × PlanningTask)) :
            (kept ++ (taken ++ later)).Perm (kept ++ later ++ taken) := by
          rw [List.append_assoc]
          exact List.perm_append_comm.append_left kept
        exact (swapped _ _ _).trans ((others.append_right _).trans here)
      · rw [List.length_append, size, List.countP_cons, ← one]
        cases operation.removed state.2 with
        | none => exact Nat.zero_add _
        | some stop => exact Nat.add_comm _ _

/-- A patch either raises or leaves stops, whose obligations are those of the base plan without
one for each removal; replacements keep them stop by stop, and moves only permute. -/
theorem patch_keeps_obligations (snapshot : Snapshot) (operations : List Operation)
    (result : Snapshot × List Stop)
    (applied : applyPatchStructure snapshot operations = .ok result) :
    result.2 ≠ [] ∧
    (result.2.map Stop.obligation ++
      (removedStops (snapshot, snapshot.stops) operations).map Stop.obligation).Perm
        (snapshot.stops.map Stop.obligation) ∧
    (removedStops (snapshot, snapshot.stops) operations).length =
      operations.countP Operation.isRemoval ∧
    ∀ operation ∈ operations, ∀ before after : Snapshot × List Stop,
      applyOperation before operation = .ok after → operation.Keeps before.2 after.2 := by
  obtain ⟨ran, occupied⟩ := applyPatchStructure_ok_iff.mp applied
  obtain ⟨kept, size⟩ := foldlM_obligations ran
  exact ⟨occupied, kept, size, fun operation _ before after => applyOperation_keeps⟩

theorem ok_of_any {result : Except ε α} {P : α → Bool} (holds : result.toOption.any P = true) :
    ∃ value, result = .ok value ∧ P value = true := by
  cases result with
  | error => contradiction
  | ok value => exact ⟨value, rfl, holds⟩

/-- The first stop moves to a mall and shopping, then the mall is removed. -/
def museumMall : List Operation :=
  [.replaceStop (some "A") (some { task := some { description := "shopping" }
                                   poi := some { id := "mall", location := ⟨0, 0⟩ } }),
    .moveStop (some 0) (some 1), .removeStop (some "mall")]

theorem patch_keeps_obligations_museum : ∃ result,
    applyPatchStructure museumPlan museumMall = .ok result ∧
    (result.2.map Stop.obligation ++
      (removedStops (museumPlan, museumPlan.stops) museumMall).map Stop.obligation).Perm
        (museumPlan.stops.map Stop.obligation) := by
  have applied : (applyPatchStructure museumPlan museumMall).toOption.any (fun _ => true) =
      true := by decide
  obtain ⟨result, answered, -⟩ := ok_of_any applied
  exact ⟨result, answered, (patch_keeps_obligations museumPlan museumMall result answered).2.1⟩

end MapGo.Patch
