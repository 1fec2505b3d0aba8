import MapGo.Patch.Obligations
import MapGo.Patch.Review

/-! What the review of a patch protects. It judges each removal by the ids of the base plan, while
the application looks the id up in the stops that the operations before it have left. -/
namespace MapGo.Patch

open MapGo.ListEdit

def PlanPatchArtifact.completed (artifact : PlanPatchArtifact) : List String :=
  (artifact.impact.changes.map ImpactChanges.completedStopIds).getD []

/-- The obligations of the required stops that are not listed as completed. -/
def owed (base : Snapshot) (completed : List String) : List (Int × Route.PlanningTask) :=
  (base.stops.filter fun stop => stop.task.required ∧ stop.poi.id ∉ completed).map Stop.obligation

/-- The review blocks the removal of this id. -/
def protects (base : Snapshot) (completed : List String) (id : String) : Bool :=
  requiredById base (some id) && decide (id ∉ completed)

/-- A stop that is still owed has a protected id when an operation removes it. -/
def Operation.Agrees (base : Snapshot) (completed : List String) (stops : List Stop)
    (operation : Operation) : Prop :=
  ∀ stop, operation.removed stops = some stop → stop.obligation ∈ owed base completed →
    protects base completed stop.poi.id = true

/-- Each operation agrees with the review in the stops it finds. -/
def AgreesAlong (base : Snapshot) (completed : List String) :
    Snapshot × List Stop → List Operation → Prop
  | _, [] => True
  | state, operation :: rest => operation.Agrees base completed state.2 ∧
      ∀ next, applyOperation state operation = .ok next → AgreesAlong base completed next rest

variable {base : Snapshot} {completed : List String} {state after : Snapshot × List Stop}
  {operation : Operation} {operations : List Operation} {artifact : PlanPatchArtifact}

/-- An operation whose review blocks nothing. -/
def Operation.approved (base : Snapshot) (completed : List String) : Operation → Prop
  | .removeStop stopId => ∀ id, stopId = some id → protects base completed id = false
  | _ => True

theorem reviewOperation_blocking {review : ReviewState}
    (clear : (reviewOperation base completed review operation).blocking = false) :
    review.blocking = false ∧ operation.approved base completed := by
  cases operation with
  | removeStop stopId =>
      simp only [reviewOperation] at clear
      split at clear
      next => contradiction
      next loose =>
        refine ⟨clear, ?_⟩
        rintro id rfl
        simpa [protects] using loose
  | replaceStop stopId replacement =>
      simp only [reviewOperation] at clear
      split at clear
      next => contradiction
      next => exact ⟨clear, trivial⟩
  | moveStop source target => exact ⟨clear, trivial⟩
  | changeTransportMode mode => exact ⟨clear, trivial⟩
  | changeDepartureTime departure => exact ⟨clear, trivial⟩

theorem reviewOperations_approved {review : ReviewState}
    (clear : (operations.foldl (reviewOperation base completed) review).blocking = false) :
    review.blocking = false ∧ ∀ op ∈ operations, op.approved base completed := by
  induction operations generalizing review with
  | nil => exact ⟨clear, fun op member => absurd member List.not_mem_nil⟩
  | cons operation rest ih =>
      obtain ⟨middle, others⟩ := ih clear
      obtain ⟨first, here⟩ := reviewOperation_blocking middle
      exact ⟨first, List.forall_mem_cons.mpr ⟨here, others⟩⟩

/-- A patch that is not blocked removes no protected id. -/
theorem approved_of_unblocked (unblocked : (reviewDynamicPatch base artifact).verdict ≠ .blocked) :
    ∀ op ∈ artifact.operations, op.approved base artifact.completed := by
  have clear : (reviewState base artifact).blocking = false := by
    by_contra blocking
    apply unblocked
    exact if_pos (Bool.not_eq_false _ ▸ blocking)
  have folded : (artifact.operations.foldl (reviewOperation base artifact.completed)
      (reviewImpact artifact)).blocking = false := by
    unfold reviewState at clear
    dsimp only at clear
    split at clear
    · exact clear
    · exact clear
  exact (reviewOperations_approved folded).2

theorem removed_id {stops : List Stop} {stop : Stop}
    (taken : operation.removed stops = some stop) : operation = .removeStop (some stop.poi.id) := by
  cases operation with
  | removeStop stopId =>
      obtain ⟨i, found, here⟩ := Option.bind_eq_some_iff.mp taken
      obtain ⟨other, there, same⟩ := stopPosition_getElem? found
      obtain rfl := Option.some.inj (here.symm.trans there)
      rw [same]
  | moveStop source target => contradiction
  | replaceStop stopId replacement => contradiction
  | changeTransportMode mode => contradiction
  | changeDepartureTime departure => contradiction

theorem removedStops_cons (applied : applyOperation state operation = .ok after) :
    removedStops state (operation :: operations) =
      (operation.removed state.2).toList ++ removedStops after operations := by
  rw [removedStops, applied]

/-- Where every operation agrees with the review, approved operations remove nothing owed. -/
theorem removedStops_not_owed (approved : ∀ op ∈ operations, op.approved base completed)
    (agrees : AgreesAlong base completed state operations)
    (ran : operations.foldlM applyOperation state = .ok after) :
    ∀ stop ∈ removedStops state operations, stop.obligation ∉ owed base completed := by
  induction operations generalizing state with
  | nil =>
      intro stop member
      contradiction
  | cons operation rest ih =>
      rw [List.foldlM_cons] at ran
      obtain ⟨middle, applied, ran⟩ := bind_eq_ok.mp ran
      obtain ⟨here, later⟩ := List.forall_mem_cons.mp approved
      rw [removedStops_cons applied]
      intro stop member isOwed
      rcases List.mem_append.mp member with now | afterwards
      · have taken := Option.mem_toList.mp now
        have guarded := agrees.1 stop taken isOwed
        rw [removed_id taken] at here
        have unguarded := here stop.poi.id rfl
        rw [guarded] at unguarded
        contradiction
      · exact ih later (agrees.2 middle applied) ran stop afterwards isOwed

/-- A run that removes nothing owed agrees with the review all along. -/
theorem agreesAlong_of_not_owed (ran : operations.foldlM applyOperation state = .ok after)
    (kept : ∀ stop ∈ removedStops state operations, stop.obligation ∉ owed base completed) :
    AgreesAlong base completed state operations := by
  induction operations generalizing state with
  | nil => trivial
  | cons operation rest ih =>
      rw [List.foldlM_cons] at ran
      obtain ⟨middle, applied, ran⟩ := bind_eq_ok.mp ran
      rw [removedStops_cons applied] at kept
      constructor
      · intro stop taken isOwed
        exact absurd isOwed
          (kept stop (List.mem_append_left _ (Option.mem_toList.mpr taken)))
      · intro next other
        obtain rfl := Except.ok.inj (applied.symm.trans other)
        exact ih ran fun stop member => kept stop (List.mem_append_right _ member)

/-- A replacement brings a protected id. -/
def Operation.bringsProtected (base : Snapshot) (completed : List String) : Operation → Prop
  | .replaceStop _ replacement => ∀ poi, replacement.bind Replacement.poi = some poi →
      protects base completed poi.id = true
  | _ => True

/-- Every stop that is still owed has a protected id. -/
def OwedProtected (base : Snapshot) (completed : List String) (stops : List Stop) : Prop :=
  ∀ stop ∈ stops, stop.obligation ∈ owed base completed → protects base completed stop.poi.id = true

theorem Replacement.edit_poi {replacement : Replacement} {edit : Stop → Stop}
    (valid : replacement.edit = some edit) (stop : Stop) :
    replacement.poi = some (edit stop).poi := by
  unfold Replacement.edit at valid
  split at valid
  next poi task given _ =>
    cases valid
    exact given
  next => contradiction

theorem OwedProtected.apply (safe : OwedProtected base completed state.2)
    (brings : operation.bringsProtected base completed)
    (applied : applyOperation state operation = .ok after) :
    OwedProtected base completed after.2 := by
  have keeps := applyOperation_keeps applied
  cases operation with
  | removeStop stopId =>
      obtain ⟨i, stop, -, -, same⟩ := keeps
      intro other member
      rw [same] at member
      exact safe other (List.mem_of_mem_eraseIdx member)
  | moveStop source target =>
      intro other member
      exact safe other (List.Perm.mem_iff keeps |>.mp member)
  | replaceStop stopId replacement =>
      simp only [applyOperation] at applied
      split at applied
      next => contradiction
      next i found =>
        split at applied
        next => contradiction
        next edit valid =>
          cases applied
          obtain ⟨replacement, rfl, valid⟩ := Option.bind_eq_some_iff.mp valid
          intro other member isOwed
          obtain ⟨j, there⟩ := List.mem_iff_getElem?.mp member
          rw [List.getElem?_modify] at there
          obtain ⟨stop, before, rfl⟩ := Option.map_eq_some_iff.mp there
          by_cases replaced : i = j
          · rw [if_pos replaced]
            exact brings _ (Replacement.edit_poi valid stop)
          · rw [if_neg replaced] at isOwed ⊢
            exact safe stop (List.mem_of_getElem? before) isOwed
  | changeTransportMode mode =>
      have same : after.2 = state.2 := keeps
      rwa [same]
  | changeDepartureTime departure =>
      have same : after.2 = state.2 := keeps
      rwa [same]

/-- Where owed stops start with protected ids and replacements bring only such, every operation
agrees with the review. -/
theorem agreesAlong_of_protected (safe : OwedProtected base completed state.2)
    (brings : ∀ op ∈ operations, op.bringsProtected base completed) :
    AgreesAlong base completed state operations := by
  induction operations generalizing state with
  | nil => trivial
  | cons operation rest ih =>
      obtain ⟨here, later⟩ := List.forall_mem_cons.mp brings
      constructor
      · intro stop taken isOwed
        have same := removed_id taken
        subst same
        obtain ⟨i, -, there⟩ := Option.bind_eq_some_iff.mp taken
        exact safe stop (List.mem_of_getElem? there) isOwed
      · intro next applied
        exact ih (safe.apply here applied) later

/-- A plan with the required stop A and the optional stop B. -/
def optionalB : Snapshot :=
  { museumPlan with
    stops := [museumStop 0 "A",
      { museumStop 1 "B" with task := { description := "参观", required := false } }] }

def critiqued (operations : List Operation) : PlanPatchArtifact where
  patchId := some 1
  baseVersion := 1
  operations := operations
  impact := {}
  status := "patch_pending_confirmation"

/-- A gets the id of B and is removed under it. -/
def renamedA : List Operation :=
  [.replaceStop (some "A") (some { task := some { description := "参观" }
                                   poi := some { id := "B", source := "amap", location := ⟨0, 0⟩ } }),
    .removeStop (some "B")]

/-- Two stops share an id, and the last of them is optional. -/
def sharedId : Snapshot :=
  { optionalB with stops := optionalB.stops.map fun stop =>
      { stop with poi := { stop.poi with id := "A" } } }

end MapGo.Patch
