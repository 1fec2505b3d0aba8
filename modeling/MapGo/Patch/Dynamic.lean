import MapGo.Patch.Review
import MapGo.Patch.Versioning

/-! Runs of the dynamic replanning workflow over the versions of one planning run.
A run proposes, reviews, records the review and may apply the patch on its own; users
decide patches, other runs go on and runs stop between any two of these steps. A run
works on the trip as its session holds it. -/
namespace MapGo.Patch

open Transition MapGo.Route

inductive RunPhase where
  | started
  | proposed (artifact : PlanPatchArtifact)
  | reviewed (artifact : PlanPatchArtifact) (review : DynamicPatchReview)
  | recorded (patchId : Option Nat) (autoApplyEligible : Bool)
  | ended

/-- A call of `DynamicReplanningOrchestrator.run` with the directive of its replanner. -/
structure DynamicRun where
  trip : TripSession
  basePlanVersion : Nat
  request : PendingReplanRequest
  phase : RunPhase

structure Replanning where
  plan : PlanRun
  runs : List DynamicRun := []
  /-- History: the stored patch at each automatic application. -/
  invocations : List PlanPatch := []

inductive DynamicAction where
  | other (action : PlanAction)
  | start (trip : TripSession) (basePlanVersion : Nat) (request : PendingReplanRequest)
  | advance (index : Nat) (solver : RoutingSolver) (maxReplansPerTrip : Nat)
      (provider : MapProvider)
  | crash (index : Nat)

/-- Everything but the proposals, reviews and automatic applications of the workflow itself. -/
def PlanAction.external : PlanAction → Bool
  | .replan .. => false
  | .review .. => false
  | .begin kind _ => kind ≠ .automatic
  | _ => true

/-- The artifact built from the answer of `create_pending_replan`. -/
def artifactOf (basePlanVersion nextPatchId : Nat) : Replanned → PlanPatchArtifact
  | .budgetExceeded => ⟨none, basePlanVersion, [], {}, "replan_budget_exceeded"⟩
  | .deduplicated patchId impact =>
      ⟨some patchId, basePlanVersion, [], impact, "patch_pending_confirmation"⟩
  | .noFeasibleReplan _ _ => ⟨none, basePlanVersion, [], {}, "no_feasible_replan"⟩
  | .stillFeasible impact _ => ⟨none, basePlanVersion, [], impact, "current_plan_still_feasible"⟩
  | .created operations impact _ =>
      ⟨some nextPatchId, basePlanVersion, operations, impact, "patch_pending_confirmation"⟩

/-- The stored row as an artifact. -/
def PlanPatch.artifact (patch : PlanPatch) : PlanPatchArtifact where
  patchId := some patch.id
  baseVersion := patch.baseVersion
  operations := patch.operations
  impact := patch.impact
  status := "patch_pending_confirmation"

namespace Replanning

def setPhase (s : Replanning) (index : Nat) (run : DynamicRun) (phase : RunPhase) : Replanning :=
  { s with runs := s.runs.set index { run with phase := phase } }

/-- `create_pending_replan` and the validation of its answer. -/
def propose (s : Replanning) (index : Nat) (run : DynamicRun) (solver : RoutingSolver)
    (maxReplansPerTrip : Nat) (provider : MapProvider) : Replanning :=
  if run.basePlanVersion ≠ run.trip.currentPlanVersion then s.setPhase index run .ended
  else
    match createPendingReplan solver maxReplansPerTrip provider s.plan.versions s.plan.patches
        run.trip run.request with
    | .error _ => s.setPhase index run .ended
    | .ok result =>
        let artifact := artifactOf run.basePlanVersion s.plan.nextPatchId result
        { s with plan := s.plan.recordReplan run.trip run.request.reason result }.setPhase index run
          (if artifact.valid then .proposed artifact else .ended)

def reviewProposal (s : Replanning) (index : Nat) (run : DynamicRun)
    (artifact : PlanPatchArtifact) : Replanning :=
  match s.plan.versions.find? (·.version = run.basePlanVersion) with
  | none => s.setPhase index run .ended
  | some row =>
      s.setPhase index run (.reviewed artifact (reviewDynamicPatch row.snapshot artifact))

/-- The review is written on the stored patch. -/
def recordReview (s : Replanning) (index : Nat) (run : DynamicRun) (artifact : PlanPatchArtifact)
    (review : DynamicPatchReview) : Replanning :=
  let optIn := run.trip.autoApplyLowRiskPatches
  let eligible := review.autoApplyEligible
  let requiresConfirmation := artifact.patchId.isSome && decide (review.verdict ≠ .blocked) &&
    !(eligible && optIn)
  let plan := match artifact.patchId with
    | none => s.plan
    | some patchId =>
        if s.plan.patches.any (·.id = patchId) then
          s.plan.recordReview patchId run.trip.id review requiresConfirmation optIn
        else s.plan
  { s with plan := plan }.setPhase index run (.recorded artifact.patchId eligible)

/-- `apply_plan_patch_cas` for an eligible patch of a trip that opted in. -/
def autoApply (s : Replanning) (index : Nat) (run : DynamicRun) (patchId : Option Nat)
    (eligible : Bool) : Replanning :=
  match patchId with
  | some patchId =>
      if eligible && run.trip.autoApplyLowRiskPatches then
        let plan := s.plan.beginAttempt .automatic patchId
        let stored := (s.plan.patches.find? (·.id = patchId)).toList
        { s with plan := plan, invocations := s.invocations ++ stored }.setPhase index run .ended
      else s.setPhase index run .ended
  | none => s.setPhase index run .ended

def step (s : Replanning) : DynamicAction → Option Replanning
  | .other action =>
      if action.external then (s.plan.step action).map fun plan => { s with plan := plan } else none
  | .start trip basePlanVersion request =>
      some { s with runs := s.runs ++ [⟨trip, basePlanVersion, request, .started⟩] }
  | .advance index solver maxReplansPerTrip provider =>
      (s.runs[index]?).bind fun run => match run.phase with
        | .started => some (s.propose index run solver maxReplansPerTrip provider)
        | .proposed artifact => some (s.reviewProposal index run artifact)
        | .reviewed artifact review => some (s.recordReview index run artifact review)
        | .recorded patchId eligible => some (s.autoApply index run patchId eligible)
        | .ended => none
  | .crash index => (s.runs[index]?).map fun run => s.setPhase index run .ended

/-- The patch that the dedupe lookup of a run is about to return. -/
def replayed (s : Replanning) (run : DynamicRun) (maxReplansPerTrip : Nat) : Option PlanPatch :=
  if run.trip.replanCount < maxReplansPerTrip ∧
      run.basePlanVersion = run.trip.currentPlanVersion ∧
      s.plan.versions.any (·.version = run.trip.currentPlanVersion) then
    pendingDuplicate s.plan.patches run.trip run.request
  else none

/-- A pending patch that is returned again in a trip that opted in only moves stops, unless its
impact alone already raises the risk. -/
def replaySafe (s : Replanning) : DynamicAction → Bool
  | .advance index _ maxReplansPerTrip _ =>
      match s.runs[index]? with
      | none => true
      | some run =>
          match run.phase, s.replayed run maxReplansPerTrip with
          | .started, some patch =>
              !(run.trip.autoApplyLowRiskPatches && impactClean patch.baseVersion patch.impact) ||
                patch.operations.all Operation.isMove
          | _, _ => true
  | _ => true

end Replanning

/-- The workflow over a fresh planning run. -/
def dynamicMachine : Machine Replanning DynamicAction where
  initial s := planRunMachine.initial s.plan ∧ s.runs = [] ∧ s.invocations = []
  step := Replanning.step

/-- Reviewed against any base, the stored operations of the patch have low risk. -/
def PlanPatch.LowRisk (patch : PlanPatch) : Prop :=
  ∀ base, (reviewDynamicPatch base patch.artifact).autoApplyEligible = true

theorem PlanPatch.lowRisk_iff {patch : PlanPatch} : patch.LowRisk ↔
    impactClean patch.baseVersion patch.impact = true ∧
      ∀ op ∈ patch.operations, op.isMove = true := by
  constructor
  · intro low
    exact autoApplyEligible_iff.mp (low { intent := { tasks := [] }, stops := [] })
  · intro moves base
    exact autoApplyEligible_iff.mpr moves

theorem impactClean_congr {base : Nat} {impact impact' : Impact}
    (before : impact.before = impact'.before) (after : impact.after = impact'.after) :
    impactClean base impact = impactClean base impact' := by
  simp [impactClean, reportedConflicts, baseMatches, materialCostIncrease, before, after]

/-- The proposal speaks of a stored patch, and finds low risk only where the stored one has it. -/
def Backed (plan : PlanRun) (optIn : Bool) (artifact : PlanPatchArtifact) : Prop :=
  ∀ patchId, artifact.patchId = some patchId →
    ∃ operations, (patchId, artifact.baseVersion, operations, artifact.impact.before,
        artifact.impact.after) ∈ plan.contents ∧
      (optIn = true → impactClean artifact.baseVersion artifact.impact = true →
        (∀ op ∈ artifact.operations, op.isMove = true) → ∀ op ∈ operations, op.isMove = true)

/-- The stored patch has low risk. -/
def Cleared (plan : PlanRun) (patchId : Nat) : Prop :=
  ∃ base operations before after, (patchId, base, operations, before, after) ∈ plan.contents ∧
    impactClean base { before := before, after := after } = true ∧
      ∀ op ∈ operations, op.isMove = true

/-- What a run knows about its patch. -/
def RunPhase.Sound (plan : PlanRun) (optIn : Bool) : RunPhase → Prop
  | .started | .ended => True
  | .proposed artifact => Backed plan optIn artifact
  | .reviewed artifact review => Backed plan optIn artifact ∧
      ∃ base, review = reviewDynamicPatch base artifact
  | .recorded patchId eligible => eligible = true → optIn = true →
      ∀ id, patchId = some id → Cleared plan id

section

variable {plan plan' : PlanRun} {optIn : Bool} {artifact : PlanPatchArtifact} {patchId : Nat}

theorem Backed.mono (backed : Backed plan optIn artifact)
    (grown : plan.contents <+: plan'.contents) : Backed plan' optIn artifact := by
  intro patchId present
  obtain ⟨operations, stored, moves⟩ := backed patchId present
  exact ⟨operations, grown.subset stored, moves⟩

theorem Cleared.mono (cleared : Cleared plan patchId) (grown : plan.contents <+: plan'.contents) :
    Cleared plan' patchId := by
  obtain ⟨base, operations, before, after, stored, clean⟩ := cleared
  exact ⟨base, operations, before, after, grown.subset stored, clean⟩

theorem RunPhase.Sound.mono {phase : RunPhase} (sound : phase.Sound plan optIn)
    (grown : plan.contents <+: plan'.contents) : phase.Sound plan' optIn := by
  cases phase with
  | started => trivial
  | ended => trivial
  | proposed artifact => exact Backed.mono sound grown
  | reviewed artifact review => exact ⟨Backed.mono sound.1 grown, sound.2⟩
  | recorded patchId eligible =>
      exact fun low optIn id same => Cleared.mono (sound low optIn id same) grown

/-- A review without risk of a backed proposal clears the stored patch. -/
theorem Backed.cleared {base : Snapshot} (backed : Backed plan optIn artifact) (opted : optIn = true)
    (low : (reviewDynamicPatch base artifact).autoApplyEligible = true)
    (present : artifact.patchId = some patchId) : Cleared plan patchId := by
  obtain ⟨clean, moves⟩ := autoApplyEligible_iff.mp low
  obtain ⟨operations, stored, all⟩ := backed patchId present
  have same : impactClean artifact.baseVersion
      { before := artifact.impact.before, after := artifact.impact.after } =
        impactClean artifact.baseVersion artifact.impact := impactClean_congr rfl rfl
  exact ⟨_, operations, _, _, stored, same.trans clean, all opted clean moves⟩

/-- The stored row of a cleared patch has low risk. -/
theorem Cleared.lowRisk (cleared : Cleared plan patchId) (numbered : plan.Numbered)
    {patch : PlanPatch} (found : plan.patches.find? (·.id = patchId) = some patch) :
    patch.LowRisk := by
  obtain ⟨base, operations, before, after, stored, clean, moves⟩ := cleared
  have id : patch.id = patchId := by simpa using List.find?_some found
  have row : patch.content ∈ plan.contents := List.mem_map_of_mem (List.mem_of_find?_eq_some found)
  have distinct : (plan.contents.map fun content => content.1).Nodup := by
    have ids := numbered.1
    rwa [PlanRun.bases_eq, List.map_map] at ids
  have same := List.inj_on_of_nodup_map distinct row stored id
  simp only [PlanPatch.content, Prod.mk.injEq] at same
  obtain ⟨-, rfl, rfl, rfl, rfl⟩ := same
  have same : impactClean patch.baseVersion patch.impact = impactClean patch.baseVersion
      { before := patch.impact.before, after := patch.impact.after } := impactClean_congr rfl rfl
  exact PlanPatch.lowRisk_iff.mpr ⟨same.trans clean, moves⟩

end

theorem replanSnapshot_not_deduplicated {solver : RoutingSolver} {provider : MapProvider}
    {trip : TripSession} {request : PendingReplanRequest} {snapshot : Snapshot} {patchId : Nat}
    {impact : Impact} :
    replanSnapshot solver provider trip request snapshot ≠ .ok (.deduplicated patchId impact) := by
  intro answered
  simp only [replanSnapshot] at answered
  split at answered
  · contradiction
  · simp only [bind_eq_ok] at answered
    obtain ⟨substituted, -, options, -, answered⟩ := answered
    split at answered
    · cases answered
    · simp only [bind_eq_ok] at answered
      obtain ⟨departure, -, answered⟩ := answered
      split at answered <;> cases answered

theorem createPendingReplan_deduplicated {solver : RoutingSolver} {maxReplansPerTrip : Nat}
    {provider : MapProvider} {versions : List PlanVersion} {patches : List PlanPatch}
    {trip : TripSession} {request : PendingReplanRequest} {patchId : Nat} {impact : Impact}
    (answered : createPendingReplan solver maxReplansPerTrip provider versions patches trip
      request = .ok (.deduplicated patchId impact)) :
    trip.replanCount < maxReplansPerTrip ∧
      versions.any (·.version = trip.currentPlanVersion) = true ∧
      ∃ patch, pendingDuplicate patches trip request = some patch ∧ patch.id = patchId ∧
        patch.impact = impact := by
  simp only [createPendingReplan] at answered
  split at answered
  · cases answered
  · rename_i budget
    split at answered
    · cases answered
    · rename_i version found
      refine ⟨by omega, ?_, ?_⟩
      · have current := List.find?_some found
        exact List.any_eq_true.mpr ⟨version, List.mem_of_find?_eq_some found, current⟩
      · split at answered
        · rename_i patch pending
          cases answered
          exact ⟨patch, pending, rfl, rfl⟩
        · exact absurd answered replanSnapshot_not_deduplicated

theorem pendingDuplicate_mem {patches : List PlanPatch} {trip : TripSession}
    {request : PendingReplanRequest} {patch : PlanPatch}
    (pending : pendingDuplicate patches trip request = some patch) :
    patch ∈ patches ∧ patch.baseVersion = trip.currentPlanVersion := by
  simp only [pendingDuplicate] at pending
  split at pending
  · contradiction
  · have kept := List.mem_filter.mp (List.mem_of_find?_eq_some pending)
    exact ⟨kept.1, by simpa using (of_decide_eq_true kept.2).1⟩

namespace Replanning

variable {s t : Replanning} {index : Nat} {run : DynamicRun}

structure Sound (s : Replanning) : Prop where
  reachable : planRunMachine.Reachable s.plan
  runs : ∀ run ∈ s.runs, run.phase.Sound s.plan run.trip.autoApplyLowRiskPatches
  invocations : ∀ patch ∈ s.invocations, patch.LowRisk

/-- A step of one run: its plan steps on and the run gets a sound phase. -/
theorem Sound.advance (inv : s.Sound) {plan : PlanRun} {phase : RunPhase} (action : PlanAction)
    (stepped : s.plan.step action = some plan)
    (sound : phase.Sound plan run.trip.autoApplyLowRiskPatches) :
    ({ s with plan := plan }.setPhase index run phase).Sound where
  reachable := inv.reachable.next stepped
  runs := by
    intro other member
    obtain old | rfl := List.mem_or_eq_of_mem_set member
    · exact (inv.runs other old).mono (PlanRun.step_contents stepped)
    · exact sound
  invocations := inv.invocations

theorem Sound.settle (inv : s.Sound) {phase : RunPhase}
    (sound : phase.Sound s.plan run.trip.autoApplyLowRiskPatches) :
    (s.setPhase index run phase).Sound where
  reachable := inv.reachable
  runs := by
    intro other member
    obtain old | rfl := List.mem_or_eq_of_mem_set member
    · exact inv.runs other old
    · exact sound
  invocations := inv.invocations

/-- The answer of `create_pending_replan` is backed by the stored patches, also where it is that
of an earlier delivery, as long as that one is safe to replay. -/
theorem backed_artifact {solver : RoutingSolver} {maxReplansPerTrip : Nat} {provider : MapProvider}
    {result : Replanned} (current : run.basePlanVersion = run.trip.currentPlanVersion)
    (safe : ∀ patch, s.replayed run maxReplansPerTrip = some patch →
      run.trip.autoApplyLowRiskPatches = true → impactClean patch.baseVersion patch.impact = true →
        ∀ op ∈ patch.operations, op.isMove = true)
    (answered : createPendingReplan solver maxReplansPerTrip provider s.plan.versions
      s.plan.patches run.trip run.request = .ok result) :
    Backed (s.plan.recordReplan run.trip run.request.reason result)
      run.trip.autoApplyLowRiskPatches
      (artifactOf run.basePlanVersion s.plan.nextPatchId result) := by
  intro patchId present
  cases result with
  | budgetExceeded => contradiction
  | noFeasibleReplan => contradiction
  | stillFeasible => contradiction
  | created operations impact alternatives =>
      obtain rfl := Option.some.inj present
      refine ⟨operations, ?_, fun _ _ moves => moves⟩
      refine List.mem_map.mpr ⟨⟨s.plan.nextPatchId, run.trip.currentPlanVersion, operations,
        run.request.reason, impact, .pending⟩, List.mem_append_right _ (List.mem_singleton_self _), ?_⟩
      simp [PlanPatch.content, artifactOf, current]
  | deduplicated id impact =>
      obtain rfl := Option.some.inj present
      obtain ⟨budget, version, patch, pending, rfl, rfl⟩ := createPendingReplan_deduplicated answered
      obtain ⟨member, base⟩ := pendingDuplicate_mem pending
      have found : s.replayed run maxReplansPerTrip = some patch := by
        rw [replayed, if_pos ⟨budget, current, version⟩, pending]
      refine ⟨patch.operations, ?_, fun opted clean _ => safe patch found opted ?_⟩
      · refine List.mem_map.mpr ⟨patch, member, ?_⟩
        simp [PlanPatch.content, artifactOf, base, current]
      · rw [base, ← current]
        exact clean

theorem Sound.propose (inv : s.Sound) {solver : RoutingSolver} {maxReplansPerTrip : Nat}
    {provider : MapProvider} (safe : ∀ patch, s.replayed run maxReplansPerTrip = some patch →
      run.trip.autoApplyLowRiskPatches = true → impactClean patch.baseVersion patch.impact = true →
        ∀ op ∈ patch.operations, op.isMove = true) :
    (s.propose index run solver maxReplansPerTrip provider).Sound := by
  simp only [Replanning.propose]
  split
  · exact inv.settle trivial
  · rename_i current
    split
    · exact inv.settle trivial
    · rename_i result answered
      have stepped : s.plan.step (.replan run.trip solver maxReplansPerTrip provider run.request) =
          some (s.plan.recordReplan run.trip run.request.reason result) := by
        simp only [PlanRun.step, answered]
      refine inv.advance _ stepped ?_
      split
      · exact backed_artifact (not_not.mp current) safe answered
      · trivial

theorem Sound.recordReview (inv : s.Sound) {artifact : PlanPatchArtifact}
    {review : DynamicPatchReview} (backed : Backed s.plan run.trip.autoApplyLowRiskPatches artifact)
    (reviewed : ∃ base, review = reviewDynamicPatch base artifact) :
    (s.recordReview index run artifact review).Sound := by
  obtain ⟨base, rfl⟩ := reviewed
  have cleared : (RunPhase.recorded artifact.patchId
      (reviewDynamicPatch base artifact).autoApplyEligible).Sound s.plan
        run.trip.autoApplyLowRiskPatches :=
    fun low opted id present => backed.cleared opted low present
  simp only [Replanning.recordReview]
  split
  · exact inv.settle cleared
  · split
    · rename_i patchId present stored
      have written {requiresConfirmation optIn : Bool} : s.plan.step (.review patchId run.trip.id
          (reviewDynamicPatch base artifact) requiresConfirmation optIn) = some _ := rfl
      exact inv.advance _ written (cleared.mono (PlanRun.step_contents written))
    · exact inv.settle cleared

theorem Sound.autoApply (inv : s.Sound) {patchId : Option Nat} {eligible : Bool}
    (cleared : (RunPhase.recorded patchId eligible).Sound s.plan
      run.trip.autoApplyLowRiskPatches) :
    (s.autoApply index run patchId eligible).Sound := by
  simp only [Replanning.autoApply]
  split
  · rename_i id
    split
    · rename_i applies
      obtain ⟨low, opted⟩ := Bool.and_eq_true .. ▸ applies
      have stepped : s.plan.step (.begin .automatic id) = some _ := rfl
      have ended : RunPhase.ended.Sound (s.plan.beginAttempt .automatic id)
          run.trip.autoApplyLowRiskPatches := trivial
      refine { inv.advance _ stepped ended with invocations := fun patch member => ?_ }
      obtain old | new := List.mem_append.mp member
      · exact inv.invocations patch old
      · have numbered := (PlanRun.Chained.of_reachable inv.reachable).numbered
        exact (cleared low opted id rfl).lowRisk numbered (Option.mem_toList.mp new)
    · exact inv.settle trivial
  · exact inv.settle trivial

theorem Sound.step (inv : s.Sound) {action : DynamicAction} (safe : s.replaySafe action = true)
    (stepped : s.step action = some t) : t.Sound := by
  cases action with
  | other action =>
      simp only [Replanning.step] at stepped
      split at stepped
      · obtain ⟨plan, moved, rfl⟩ := Option.map_eq_some_iff.mp stepped
        exact ⟨inv.reachable.next moved,
          fun run member => (inv.runs run member).mono (PlanRun.step_contents moved),
          inv.invocations⟩
      · contradiction
  | start trip basePlanVersion request =>
      cases stepped
      refine { inv with runs := fun run member => ?_ }
      obtain old | new := List.mem_append.mp member
      · exact inv.runs run old
      · rw [List.mem_singleton.mp new]
        trivial
  | crash index =>
      obtain ⟨run, -, rfl⟩ := Option.map_eq_some_iff.mp stepped
      exact inv.settle trivial
  | advance index solver maxReplansPerTrip provider =>
      obtain ⟨run, present, stepped⟩ := Option.bind_eq_some_iff.mp stepped
      have sound := inv.runs run (List.mem_of_getElem? present)
      obtain ⟨trip, basePlanVersion, request, phase⟩ := run
      cases phase with
      | started =>
          cases stepped
          refine inv.propose fun patch found opted clean => ?_
          have opted' : trip.autoApplyLowRiskPatches = true := opted
          simp only [replaySafe, present, found, opted', clean] at safe
          simpa using safe
      | proposed artifact =>
          cases stepped
          simp only [reviewProposal]
          split
          · exact inv.settle trivial
          · exact inv.settle ⟨sound, _, rfl⟩
      | reviewed artifact review =>
          cases stepped
          exact inv.recordReview sound.1 sound.2
      | recorded patchId eligible =>
          cases stepped
          exact inv.autoApply sound
      | ended => contradiction

end Replanning

namespace Replanning

variable {s : Replanning} {index maxReplansPerTrip : Nat} {run : DynamicRun}
  {solver : RoutingSolver} {provider : MapProvider}

theorem setPhase_run (present : s.runs[index]? = some run) (plan : PlanRun) (phase : RunPhase) :
    ({ s with plan := plan }.setPhase index run phase).runs[index]? =
      some { run with phase := phase } :=
  List.getElem?_set_self (List.getElem?_eq_some_iff.mp present).1

theorem deduplicated_of_replayed {patch : PlanPatch}
    (found : s.replayed run maxReplansPerTrip = some patch) :
    run.basePlanVersion = run.trip.currentPlanVersion ∧
      (∃ row, s.plan.versions.find? (·.version = run.basePlanVersion) = some row) ∧
      patch ∈ s.plan.patches ∧ patch.baseVersion = run.basePlanVersion ∧
      ∀ solver provider, createPendingReplan solver maxReplansPerTrip provider s.plan.versions
        s.plan.patches run.trip run.request = .ok (.deduplicated patch.id patch.impact) := by
  simp only [replayed] at found
  split at found
  · rename_i looked
    obtain ⟨budget, current, version⟩ := looked
    obtain ⟨row, first⟩ := Option.isSome_iff_exists.mp
      ((List.find?_isSome).mpr (List.any_eq_true.mp version))
    obtain ⟨member, base⟩ := pendingDuplicate_mem found
    refine ⟨current, ⟨row, by rw [current, first]⟩, member, base.trans current.symm, ?_⟩
    intro solver provider
    simp only [createPendingReplan, Nat.not_le.mpr budget, ↓reduceIte, first, found]
  · contradiction

/-- The stored row that an application of the patch would read after the review was recorded. -/
theorem stored_after_review {patch : PlanPatch} (numbered : s.plan.Numbered)
    (member : patch ∈ s.plan.patches) (tripId : Nat) (review : DynamicPatchReview)
    (requiresConfirmation optIn : Bool) :
    ∃ stored, (s.plan.recordReview patch.id tripId review requiresConfirmation optIn).patches.find?
      (·.id = patch.id) = some stored ∧ stored.operations = patch.operations := by
  have calm : s.plan.Calm (s.plan.recordReview patch.id tripId review requiresConfirmation optIn) :=
    PlanRun.recordReview_calm
  generalize s.plan.recordReview patch.id tripId review requiresConfirmation optIn = plan at calm
  have kept : patch.content ∈ plan.contents := calm.contents.subset (List.mem_map_of_mem member)
  obtain ⟨row, inside, same⟩ := List.mem_map.mp kept
  obtain ⟨stored, found⟩ := Option.isSome_iff_exists.mp
    ((List.find?_isSome (p := fun row : PlanPatch => decide (row.id = patch.id))).mpr
      ⟨row, inside, decide_eq_true (congrArg Prod.fst same)⟩)
  refine ⟨stored, found, ?_⟩
  have distinct : (plan.contents.map fun content => content.1).Nodup := by
    have ids := (calm.numbered numbered).1
    rwa [PlanRun.bases_eq, List.map_map] at ids
  have id : stored.id = patch.id := by simpa using List.find?_some found
  have equal := List.inj_on_of_nodup_map distinct
    (List.mem_map_of_mem (List.mem_of_find?_eq_some found)) kept id
  exact congrArg (fun content => content.2.2.1) equal

/-- A replayed patch is proposed again without its operations. -/
theorem propose_replayed {patch : PlanPatch} (found : s.replayed run maxReplansPerTrip = some patch)
    (solver : RoutingSolver) (provider : MapProvider) :
    s.propose index run solver maxReplansPerTrip provider = s.setPhase index run
      (.proposed (artifactOf run.basePlanVersion 0 (.deduplicated patch.id patch.impact))) := by
  obtain ⟨current, -, -, -, answered⟩ := deduplicated_of_replayed found
  have valid : (artifactOf run.basePlanVersion s.plan.nextPatchId
      (.deduplicated patch.id patch.impact)).valid = true := by
    simp [artifactOf, PlanPatchArtifact.valid]
  simp only [propose, current, ne_eq, not_true_eq_false, ↓reduceIte, answered]
  rw [current] at valid
  rw [if_pos valid]
  rfl

/-- The steps of a run whose patch is replayed, when it is reviewed without its operations. -/
theorem replay_steps {patch : PlanPatch} (present : s.runs[index]? = some run)
    (starts : run.phase = .started) (found : s.replayed run maxReplansPerTrip = some patch)
    (opted : run.trip.autoApplyLowRiskPatches = true)
    (clean : impactClean patch.baseVersion patch.impact = true) (solver : RoutingSolver)
    (provider : MapProvider) :
    ∃ t tripId review requiresConfirmation optIn, dynamicMachine.Reaches s t ∧
      t.invocations = s.invocations ++ ((s.plan.recordReview patch.id tripId review
        requiresConfirmation optIn).patches.find? (·.id = patch.id)).toList := by
  obtain ⟨-, ⟨row, version⟩, member, base, -⟩ := deduplicated_of_replayed found
  have stored : s.plan.patches.any (·.id = patch.id) = true :=
    List.any_eq_true.mpr ⟨patch, member, by simp⟩
  let artifact := artifactOf run.basePlanVersion 0 (.deduplicated patch.id patch.impact)
  let review := reviewDynamicPatch row.snapshot artifact
  have eligible : review.autoApplyEligible = true :=
    autoApplyEligible_iff.mpr ⟨by rw [← clean, base]; rfl, by simp [artifact, artifactOf]⟩
  let next := DynamicAction.advance index solver maxReplansPerTrip provider
  have proposes : dynamicMachine.step s next = some (s.setPhase index run (.proposed artifact)) := by
    simp only [dynamicMachine, next, step, present, Option.bind_some, starts,
      propose_replayed found]
    rfl
  let run₁ := { run with phase := .proposed artifact }
  let s₁ := s.setPhase index run (.proposed artifact)
  have present₁ : s₁.runs[index]? = some run₁ := setPhase_run present s.plan _
  have reviews : dynamicMachine.step s₁ next = some (s₁.setPhase index run₁ (.reviewed artifact review)) := by
    simp only [dynamicMachine, next, step, present₁, Option.bind_some, run₁, reviewProposal]
    simp only [s₁, setPhase, version, review]
  let run₂ := { run with phase := .reviewed artifact review }
  let s₂ := s₁.setPhase index run₁ (.reviewed artifact review)
  have present₂ : s₂.runs[index]? = some run₂ := setPhase_run present₁ s.plan _
  have records : dynamicMachine.step s₂ next = some (s₂.recordReview index run₂ artifact review) := by
    simp only [dynamicMachine, next, step, present₂, Option.bind_some, run₂]
  let requiresConfirmation := decide (review.verdict ≠ .blocked) && !true
  let plan := s.plan.recordReview patch.id run.trip.id review requiresConfirmation true
  let run₃ := { run with phase := .recorded (some patch.id) true }
  let s₃ := { s₂ with plan := plan }.setPhase index run₂ (.recorded (some patch.id) true)
  have recorded : s₂.recordReview index run₂ artifact review = s₃ := by
    have kept : s₂.plan = s.plan := rfl
    simp only [recordReview, artifact, artifactOf, kept, stored, eligible, ↓reduceIte,
      Option.isSome_some, Bool.true_and, run₂, opted, s₃, plan, requiresConfirmation]
  have present₃ : s₃.runs[index]? = some run₃ := setPhase_run present₂ plan _
  have applies : dynamicMachine.step s₃ next = some (s₃.autoApply index run₃ (some patch.id) true) := by
    simp only [dynamicMachine, next, step, present₃, Option.bind_some, run₃]
  refine ⟨_, run.trip.id, review, requiresConfirmation, true,
    .head proposes (.head reviews (.head (recorded ▸ records) (.head applies (.refl _)))), ?_⟩
  simp only [autoApply, run₃, opted, Bool.and_self, ↓reduceIte]
  rfl

/-- Where a replay is not safe, nothing but a crash keeps the workflow from applying a patch
without low risk. -/
theorem unsafe_replay_breaks (numbered : s.plan.Numbered)
    (risky : s.replaySafe (.advance index solver maxReplansPerTrip provider) = false) :
    ∃ t, dynamicMachine.Reaches s t ∧ ∃ patch ∈ t.invocations, ¬ patch.LowRisk := by
  simp only [replaySafe] at risky
  split at risky
  · contradiction
  · rename_i run present
    split at risky
    · rename_i patch starts found
      obtain ⟨⟨opted, clean⟩, moves⟩ := by simpa using risky
      obtain ⟨t, tripId, review, requiresConfirmation, optIn, path, invoked⟩ :=
        replay_steps present starts found opted clean solver provider
      have member := (deduplicated_of_replayed found).2.2.1
      obtain ⟨stored, first, same⟩ := stored_after_review numbered member tripId review
        requiresConfirmation optIn
      refine ⟨t, path, stored, ?_, fun low => ?_⟩
      · rw [invoked, first]
        exact List.mem_append_right _ (List.mem_singleton_self _)
      · obtain ⟨op, inside, other⟩ := moves
        have all := (PlanPatch.lowRisk_iff.mp low).2 op (same ▸ inside)
        rw [all] at other
        contradiction
    · contradiction

end Replanning

/-- Along runs that replay only safe patches, every automatic application is of a patch whose
stored operations a review finds approved and of low risk. -/
theorem auto_apply_low_risk (s : Replanning)
    (reached : (dynamicMachine.restrict fun s action => s.replaySafe action = true).Reachable s) :
    ∀ patch ∈ s.invocations, ∀ base,
      (reviewDynamicPatch base patch.artifact).verdict = .approved ∧
        (reviewDynamicPatch base patch.artifact).riskLevel = .low := by
  have inv : s.Sound := by
    refine reached.invariant (fun s start => ?_) fun inv stepped => ?_
    · obtain ⟨fresh, runs, invocations⟩ := start
      exact ⟨⟨s.plan, fresh, .refl _⟩, by simp [runs], by simp [invocations]⟩
    · obtain ⟨safe, stepped⟩ := Machine.restrict_step.mp stepped
      exact inv.step safe stepped
  intro patch invoked base
  have low := inv.invocations patch invoked base
  rw [DynamicPatchReview.autoApplyEligible, Bool.and_eq_true, decide_eq_true_eq,
    decide_eq_true_eq] at low
  exact ⟨low.2, low.1⟩

/-! Two deliveries of one event. In time, the solver swaps the stops: a patch of low risk that
the second delivery finds again. Late, the patch moves the departure: it waits for the user
until the second delivery finds it again without its operations. -/

def noSolver : RoutingSolver := fun _ _ _ _ _ _ => none

/-- The way to the first stop is ten times as long as all others. -/
def detourProvider : MapProvider where
  searchPoi _ _ _ := some []
  routeMatrix _ _ := some ⟨[[⟨0, 0, 1⟩, ⟨600, 600, 1⟩, ⟨60, 60, 1⟩],
    [⟨60, 60, 1⟩, ⟨0, 0, 1⟩, ⟨60, 60, 1⟩], [⟨60, 60, 1⟩, ⟨60, 60, 1⟩, ⟨0, 0, 1⟩]]⟩

def optedTrip : TripSession where
  id := 0
  state := .activeTrip
  currentPlanVersion := 1
  autoApplyLowRiskPatches := true

/-- The event 7 at a number of seconds after the planned departure. -/
def delayed (seconds : Int) : PendingReplanRequest where
  currentLocation := ⟨0, 0⟩
  currentTime := ⟨seconds * 1000000, 0⟩
  sourceEventId := some 7

def deliveredTwice (seconds : Int) (provider : MapProvider) : List DynamicAction :=
  [.other (.startTrip true), .start optedTrip 1 (delayed seconds)] ++
    List.replicate 4 (.advance 0 noSolver 10 provider) ++
    [.start { optedTrip with state := .replanning, replanCount := 1 } 1 (delayed seconds)] ++
    List.replicate 4 (.advance 1 noSolver 10 provider)

def freshReplanning : Replanning := { plan := museumRun }

theorem freshReplanning_initial : dynamicMachine.initial freshReplanning :=
  ⟨⟨museumPlan, "initial_plan", rfl⟩, rfl, rfl⟩

theorem auto_apply_low_risk_moved : ∃ (s : Replanning) (patch : PlanPatch), patch ∈ s.invocations ∧
    patch.operations = [.moveStop (some 1) (some 0)] ∧
    (reviewDynamicPatch museumPlan patch.artifact).verdict = .approved ∧
      (reviewDynamicPatch museumPlan patch.artifact).riskLevel = .low := by
  have moved : (dynamicMachine.run freshReplanning (deliveredTwice 0 detourProvider)).map
      (fun s => s.invocations.map PlanPatch.operations) =
        some [[.moveStop (some 1) (some 0)], [.moveStop (some 1) (some 0)]] := by decide +kernel
  obtain ⟨s, ran, same⟩ := Option.map_eq_some_iff.mp moved
  have reached : (dynamicMachine.restrict fun s action => s.replaySafe action = true).Reachable s :=
    Machine.reachable_restrict_of_run _ freshReplanning_initial ran
      (Machine.meetsAlong_of_along (by decide +kernel))
  have member : [.moveStop (some 1) (some 0)] ∈ s.invocations.map PlanPatch.operations :=
    same ▸ List.mem_cons_self
  obtain ⟨patch, invoked, operations⟩ := List.mem_map.mp member
  exact ⟨s, patch, invoked, operations, auto_apply_low_risk s reached patch invoked museumPlan⟩

/-- The second delivery applies a patch of medium risk that nobody has confirmed. -/
theorem replay_applies_medium_risk : ∃ s, dynamicMachine.Reachable s ∧
    ∃ patch ∈ s.invocations, ∃ row ∈ s.plan.versions, row.version = patch.baseVersion ∧
      (reviewDynamicPatch row.snapshot patch.artifact).verdict = .approvedWithWarnings ∧
      (reviewDynamicPatch row.snapshot patch.artifact).riskLevel = .medium := by
  have applied : (dynamicMachine.run freshReplanning (deliveredTwice 900 evenProvider)).map
      (fun s => s.invocations.any fun patch => s.plan.versions.any fun row =>
        decide (row.version = patch.baseVersion ∧
          (reviewDynamicPatch row.snapshot patch.artifact).verdict = .approvedWithWarnings ∧
          (reviewDynamicPatch row.snapshot patch.artifact).riskLevel = .medium)) = some true := by
    decide +kernel
  obtain ⟨s, ran, found⟩ := Option.map_eq_some_iff.mp applied
  obtain ⟨patch, invoked, found⟩ := List.any_eq_true.mp found
  obtain ⟨row, present, risk⟩ := List.any_eq_true.mp found
  exact ⟨s, Machine.reachable_of_run _ freshReplanning_initial ran, patch, invoked, row, present,
    of_decide_eq_true risk⟩

end MapGo.Patch
