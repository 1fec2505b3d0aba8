import MapGo.Patch.Dynamic
import MapGo.Patch.Proposal

/-! Created patches against the schemas that read them back after they are stored. Every stop
that leaves, overtakes another or is substituted takes an operation of its own, and neither
the plan nor its changes are limited to the twenty operations of the schemas. -/
namespace MapGo.Patch

open Transition MapGo.ListEdit MapGo.Route

/-- The limits of the review's schema. -/
def DynamicPatchReview.valid (review : DynamicPatchReview) : Bool :=
  decide (review.findings.length ≤ 30) && decide (review.operationCount ≤ 20)

/-- The artifact of a patch and its review can be built. -/
def Representable (base : Snapshot) (artifact : PlanPatchArtifact) : Prop :=
  artifact.valid = true ∧ (reviewDynamicPatch base artifact).valid = true

/-! ### What a replan changes -/

/-- The stops whose POI id no kept stop has. -/
def leaving (decisions : List Decision) : List Decision :=
  decisions.filter fun decision =>
    decision.sourceId ∉ (keptDecisions decisions).map Decision.sourceId

/-- The ids of the stops that stay, in the order of the base plan. -/
def staying (decisions : List Decision) : List String :=
  (decisions.filter fun decision =>
    decision.sourceId ∈ (keptDecisions decisions).map Decision.sourceId).map Decision.sourceId

/-- The kept stops that stand under the id of a substituted one. -/
def substituted (decisions ordered : List Decision) : List Decision :=
  ordered.filter fun decision =>
    decisions.any fun other => other.changed && other.sourceId = decision.sourceId

/-- The turns of the placement loop that find a stop elsewhere. -/
def displaced (decisions ordered : List Decision) : List (Nat × Nat) :=
  arrange 0 (staying decisions) (ordered.map Decision.sourceId)

/-- The changes of transport mode and departure time. -/
def switches (base chosen : TransportMode) (departure current : DateTime) : Nat :=
  (if chosen ≠ base then 1 else 0) + (if 60 ≤ |current.secondsSince departure| then 1 else 0)

/-- Stops that are addressed have an id, and no more than twenty changes are made. -/
structure Expressible (decisions ordered : List Decision) (switched : Nat) : Prop where
  named : ∀ decision ∈ leaving decisions ++ substituted decisions ordered, decision.sourceId ≠ ""
  few : (leaving decisions).length + (displaced decisions ordered).length +
    (substituted decisions ordered).length + switched ≤ 20

section

variable {decisions ordered : List Decision} {base : Snapshot} {artifact : PlanPatchArtifact}

/-! ### The review -/

theorem reviewOperation_findings (base : Snapshot) (completed : List String)
    (state : ReviewState) (operation : Operation) :
    (reviewOperation base completed state operation).findings.length ≤ state.findings.length + 1 := by
  cases operation with
  | removeStop stopId =>
      simp only [reviewOperation]
      split <;> simp
  | moveStop source target => simp [reviewOperation]
  | replaceStop stopId replacement =>
      simp only [reviewOperation]
      split <;> simp
  | changeTransportMode mode => simp [reviewOperation]
  | changeDepartureTime departure => simp [reviewOperation]

theorem reviewOperations_findings (base : Snapshot) (completed : List String)
    (operations : List Operation) (state : ReviewState) :
    (operations.foldl (reviewOperation base completed) state).findings.length ≤
      state.findings.length + operations.length := by
  induction operations generalizing state with
  | nil => exact le_rfl
  | cons operation operations ih =>
      have first := reviewOperation_findings base completed state operation
      have rest := ih (reviewOperation base completed state operation)
      rw [List.foldl_cons, List.length_cons]
      omega

theorem reviewImpact_findings (artifact : PlanPatchArtifact) :
    (reviewImpact artifact).findings.length ≤ 2 := by
  simp only [reviewImpact]
  split <;> split <;> simp

/-- A finding for each operation and three for the impact. -/
theorem reviewDynamicPatch_findings (base : Snapshot) (artifact : PlanPatchArtifact) :
    (reviewDynamicPatch base artifact).findings.length ≤ artifact.operations.length + 3 := by
  have start := reviewImpact_findings artifact
  have found := reviewOperations_findings base
    ((artifact.impact.changes.map ImpactChanges.completedStopIds).getD []) artifact.operations
    (reviewImpact artifact)
  have priced : (reviewState base artifact).findings.length ≤ artifact.operations.length + 3 := by
    simp only [reviewState]
    split
    · simp only [List.length_append, List.length_singleton]
      omega
    · omega
  simp only [reviewDynamicPatch]
  split
  · simp
  · exact priced

theorem PlanPatchArtifact.valid_iff : artifact.valid = true ↔
    (artifact.operations.all Operation.valid = true ∧ artifact.operations.length ≤ 20) ∧
      (artifact.status = "patch_pending_confirmation" → artifact.patchId.isNone = false) := by
  simp [PlanPatchArtifact.valid, imp_iff_not_or]

/-- The review fits its schema wherever the artifact fits its own. -/
theorem representable_iff : Representable base artifact ↔ artifact.valid = true := by
  refine and_iff_left_of_imp fun valid => ?_
  have few := (PlanPatchArtifact.valid_iff.mp valid).1.2
  have findings := reviewDynamicPatch_findings base artifact
  simp only [DynamicPatchReview.valid, Bool.and_eq_true, decide_eq_true_eq]
  exact ⟨by omega, few⟩

/-! ### The operations -/

theorem removeOperations_kept : removeOperations (decisions.map Decision.source)
      (((keptDecisions decisions).map Decision.item).map Item.sourceId) =
    (leaving decisions).map fun decision => .removeStop (some decision.sourceId) := by
  have ids : ((keptDecisions decisions).map Decision.item).map Item.sourceId =
      (keptDecisions decisions).map Decision.sourceId := by
    simp [Decision.item, Function.comp_def]
  rw [ids, removeOperations, leaving, List.filter_map, List.map_map]
  rfl

theorem moveOperations_kept : moveOperations (((decisions.map Decision.source).filter
      (·.poi.id ∈ ((keptDecisions decisions).map Decision.item).map Item.sourceId)).map
        fun stop => stop.poi.id) (ordered.map Decision.item) =
    (displaced decisions ordered).map fun move => .moveStop (some move.1) (some move.2) := by
  have ids : ((keptDecisions decisions).map Decision.item).map Item.sourceId =
      (keptDecisions decisions).map Decision.sourceId := by
    simp [Decision.item, Function.comp_def]
  have wanted : (ordered.map Decision.item).map Item.sourceId = ordered.map Decision.sourceId := by
    simp [Decision.item, Function.comp_def]
  rw [ids, moveOperations, wanted, displaced, staying, List.filter_map, List.map_map]
  rfl

theorem replaceOperations_kept :
    replaceOperations (decisions.filterMap Decision.record) (ordered.map Decision.item) =
      (substituted decisions ordered).map fun decision =>
        .replaceStop (some decision.sourceId) (some decision.chosen.asReplacement) := by
  have recorded (id : String) : (decisions.filterMap Decision.record).any (·.sourceStopId = id) =
      decisions.any fun other => other.changed && other.sourceId = id := by
    induction decisions with
    | nil => rfl
    | cons decision decisions ih =>
        obtain ⟨source, kept, replacement⟩ := decision
        cases replacement with
        | none => simpa [Decision.record, Decision.changed] using ih
        | some replacement =>
            simp only [Decision.record, Decision.changed, List.filterMap_cons, Option.map_some,
              List.any_cons, ih]
            rfl
  simp only [replaceOperations, substituted, List.filter_map, List.map_map, recorded]
  rfl

theorem encode_eq : encode decisions ordered =
    ((leaving decisions).map fun decision => .removeStop (some decision.sourceId)) ++
      (((displaced decisions ordered).map fun move => .moveStop (some move.1) (some move.2)) ++
        (substituted decisions ordered).map fun decision =>
          .replaceStop (some decision.sourceId) (some decision.chosen.asReplacement)) := by
  simp only [encode, structureOperations, removeOperations_kept, moveOperations_kept,
    replaceOperations_kept]

theorem switchOperations_length (base chosen : TransportMode) (departure current : DateTime) :
    (switchOperations base chosen departure current).length =
      switches base chosen departure current := by
  simp only [switchOperations, switches, List.length_append]
  split <;> split <;> rfl

theorem switchOperations_valid (base chosen : TransportMode) (departure current : DateTime) :
    (switchOperations base chosen departure current).all Operation.valid = true := by
  simp only [switchOperations]
  split <;> split <;> rfl

theorem encode_valid_iff : (encode decisions ordered).all Operation.valid = true ↔
    ∀ decision ∈ leaving decisions ++ substituted decisions ordered, decision.sourceId ≠ "" := by
  simp [encode_eq, Operation.valid, List.all_eq_true, or_imp, forall_and]

/-- The schemas hold exactly where the changes are few and the stops have ids. -/
theorem encoded_valid_iff {base chosen : TransportMode} {departure current : DateTime}
    {operations : List Operation} (encoded : operations = encode decisions ordered ++
      switchOperations base chosen departure current) :
    (operations.all Operation.valid = true ∧ operations.length ≤ 20) ↔
      Expressible decisions ordered (switches base chosen departure current) := by
  have length : operations.length = (leaving decisions).length +
      (displaced decisions ordered).length + (substituted decisions ordered).length +
        switches base chosen departure current := by
    rw [encoded, List.length_append, switchOperations_length, encode_eq]
    simp only [List.length_append, List.length_map]
    omega
  have valid : operations.all Operation.valid = true ↔ (encode decisions ordered).all
      Operation.valid = true := by
    rw [encoded, List.all_append, switchOperations_valid, Bool.and_true]
  rw [valid, encode_valid_iff, length]
  exact ⟨fun fits => ⟨fits.1, fits.2⟩, fun fits => ⟨fits.named, fits.few⟩⟩

/-- Stops that are told apart are moved exactly where they overtake another. -/
theorem displaced_length (addressable : Addressable decisions)
    (all : ordered.Perm (keptDecisions decisions)) : (displaced decisions ordered).length =
      (overtakers ((keptDecisions decisions).map Decision.sourceId)
        (ordered.map Decision.sourceId)).length := by
  have stays : staying decisions = (keptDecisions decisions).map Decision.sourceId := by
    have kept := congrArg (List.map fun stop : Stop => stop.poi.id) (filter_kept addressable)
    rw [List.filter_map, List.map_map, List.map_map] at kept
    exact kept
  rw [displaced, stays]
  exact arrange_length [] _ _ addressable.distinct (all.symm.map Decision.sourceId)

end

/-- A stored proposal can be read back and reviewed exactly where it makes few changes to stops
with ids. With one stop per POI id the displaced stops are those that overtake another. -/
theorem created_representable_iff {solver : RoutingSolver} {maxReplansPerTrip : Nat}
    {provider : MapProvider} {versions : List PlanVersion} {patches : List PlanPatch}
    {trip : TripSession} {request : PendingReplanRequest} {operations : List Operation}
    {impact : Impact} {alternatives : List Alternative} (complete : solver.Complete)
    (answered : createPendingReplan solver maxReplansPerTrip provider versions patches trip
      request = .ok (.created operations impact alternatives)) (patchId : Nat) :
    ∃ version ∈ versions, version.version = trip.currentPlanVersion ∧
      ∃ proposal : Proposal solver provider trip request version.snapshot operations impact
          alternatives,
        (Representable version.snapshot (artifactOf trip.currentPlanVersion patchId
            (.created operations impact alternatives)) ↔
          Expressible proposal.decisions proposal.ordered (switches
            version.snapshot.intent.transportMode proposal.chosen.mode proposal.departure
              request.currentTime)) ∧
        (Addressable proposal.decisions →
          (displaced proposal.decisions proposal.ordered).length =
            (overtakers ((keptDecisions proposal.decisions).map Decision.sourceId)
              (proposal.ordered.map Decision.sourceId)).length) := by
  obtain ⟨version, stored, current, replanned⟩ := createPendingReplan_created answered
  obtain ⟨proposal⟩ := replanSnapshot_created replanned
  refine ⟨version, stored, current, proposal, ?_, fun addressable =>
    displaced_length addressable (proposal.ordered_perm complete)⟩
  rw [representable_iff, ← encoded_valid_iff proposal.operations_eq, PlanPatchArtifact.valid_iff]
  exact and_iff_left fun _ => rfl

/-! In time the solver swaps the two stops of the museum trip. On a day with twenty-one stops, of
which twenty are done, it leaves the last one where it is, but late. -/

/-- The operations of a created patch. -/
def createdOperations : Except Failure Replanned → Option (List Operation)
  | .ok (.created operations _ _) => some operations
  | _ => none

theorem createdOperations_some {answer : Except Failure Replanned} {operations : List Operation}
    (created : createdOperations answer = some operations) :
    ∃ impact alternatives, answer = .ok (.created operations impact alternatives) := by
  unfold createdOperations at created
  split at created
  · rename_i impact alternatives
    cases created
    exact ⟨impact, alternatives, rfl⟩
  · contradiction

theorem noSolver_complete : noSolver.Complete := by
  intro departure tasks groups matrix preferences constraints order selected answered
  cases answered

theorem created_representable_swapped : ∃ impact alternatives,
    ∃ proposal : Proposal noSolver detourProvider optedTrip (delayed 0) museumPlan
        [.moveStop (some 1) (some 0)] impact alternatives,
      Expressible proposal.decisions proposal.ordered (switches museumPlan.intent.transportMode
        proposal.chosen.mode proposal.departure (delayed 0).currentTime) := by
  have swapped : createdOperations (createPendingReplan noSolver 10 detourProvider
      museumRun.versions [] optedTrip (delayed 0)) = some [.moveStop (some 1) (some 0)] := by
    decide +kernel
  obtain ⟨impact, alternatives, answered⟩ := createdOperations_some swapped
  obtain ⟨version, stored, -, proposal, fits, -⟩ :=
    created_representable_iff noSolver_complete answered 1
  obtain rfl := List.mem_singleton.mp stored
  exact ⟨impact, alternatives, proposal, fits.mp (representable_iff.mpr rfl)⟩

def stopId (index : Nat) : String := "P" ++ toString index

/-- A day with twenty-one stops. -/
def longPlan : Snapshot where
  origin := some ⟨0, 0⟩
  departureTime := some ⟨0, 0⟩
  intent := { tasks := List.replicate 21 { description := "参观" } }
  stops := (List.range 21).map fun index : Nat => museumStop index (stopId index)

/-- The event 7 when twenty stops are done. -/
def nearlyDone : PendingReplanRequest :=
  { delayed 900 with completedStopIds := (List.range 20).map stopId }

def RunPhase.over : RunPhase → Bool
  | .ended => true
  | _ => false

/-- The workflow stores twenty removals and a new departure, fails on them and leaves the patch
to the user without a review. -/
theorem oversized_patch_left : ∃ s, dynamicMachine.Reachable s ∧
    ∃ row ∈ s.plan.versions, row.snapshot.stops.length ≤ 24 ∧
      ∃ patch ∈ s.plan.patches, patch.baseVersion = row.version ∧ patch.status = .pending ∧
        ¬ Representable row.snapshot patch.artifact ∧ patch.impact.criticReview = none ∧
        s.runs.all (fun run => run.phase.over) = true := by
  have left : (dynamicMachine.run { plan := { versions := [⟨1, longPlan, "initial_plan"⟩] } }
      [.other (.startTrip false), .start { optedTrip with autoApplyLowRiskPatches := false } 1
        nearlyDone, .advance 0 noSolver 10 evenProvider]).map
      (fun s => s.plan.versions.any fun row => decide (row.snapshot.stops.length ≤ 24) &&
        s.plan.patches.any fun patch => decide (patch.baseVersion = row.version) &&
          decide (patch.status = .pending) && !patch.artifact.valid &&
          patch.impact.criticReview.isNone && s.runs.all fun run => run.phase.over) =
        some true := by decide +kernel
  obtain ⟨s, ran, found⟩ := Option.map_eq_some_iff.mp left
  obtain ⟨row, stored, found⟩ := List.any_eq_true.mp found
  obtain ⟨short, found⟩ := Bool.and_eq_true_iff.mp found
  obtain ⟨patch, pending, found⟩ := List.any_eq_true.mp found
  simp only [Bool.and_eq_true, decide_eq_true_eq, Bool.not_eq_true', Option.isNone_iff_eq_none]
    at short found
  obtain ⟨⟨⟨⟨base, status⟩, invalid⟩, unreviewed⟩, ended⟩ := found
  refine ⟨s, Machine.reachable_of_run _ ⟨⟨longPlan, "initial_plan", rfl⟩, rfl, rfl⟩ ran, row,
    stored, short, patch, pending, base, status, ?_, unreviewed, ended⟩
  rw [representable_iff, invalid]
  exact Bool.false_ne_true

end MapGo.Patch
