import MapGo.Patch.Versioning

/-! What validated patches leave of a plan holds of every version of a run once it holds of the
first. So every version names the status and the version that the first one names. -/
namespace MapGo.Patch

open Transition MapGo.Route

/-- What a snapshot says about itself. -/
def Snapshot.label (snapshot : Snapshot) : Option String × Option Nat :=
  (snapshot.status, snapshot.planVersion)

theorem applyPatchStructure_label {snapshot : Snapshot} {operations : List Operation}
    {result : Snapshot × List Stop}
    (applied : applyPatchStructure snapshot operations = .ok result) :
    result.1.label = snapshot.label :=
  applyPatchStructure_attribute (fun _ _ => rfl) (fun _ _ => rfl) applied

theorem recalculateAndValidateSnapshot_label {provider : MapProvider} {snapshot : Snapshot}
    {stops : List Stop} {context : Option ReplanContext} {result : Snapshot × List String}
    (validated : recalculateAndValidateSnapshot provider snapshot stops context = .ok result) :
    result.1.label = snapshot.label := by
  simp only [recalculateAndValidateSnapshot] at validated
  split at validated
  · obtain ⟨matrix, -, validated⟩ := bind_eq_ok.mp validated
    split at validated
    · cases validated
      rfl
    · obtain ⟨evaluation, -, validated⟩ := bind_eq_ok.mp validated
      obtain ⟨timed, -, validated⟩ := bind_eq_ok.mp validated
      cases validated
      rfl
  · contradiction

theorem validatePatch_label {provider : MapProvider} {base : Snapshot} {patch : PlanPatch}
    {result : Snapshot × List String} (validated : validatePatch provider base patch = .ok result) :
    result.1.label = base.label := by
  unfold validatePatch at validated
  split at validated
  · contradiction
  · rename_i applied
    exact (recalculateAndValidateSnapshot_label validated).trans (applyPatchStructure_label applied)

/-- Validated patches keep a property of snapshots. -/
def Kept (P : Snapshot → Prop) : Prop :=
  ∀ provider base patch snapshot, validatePatch provider base patch = .ok (snapshot, []) →
    P base → P snapshot

/-- Snapshots that an attempt holds have a property. -/
def Phase.Holds (P : Snapshot → Prop) : Phase → Prop
  | .checked _ base => P base.snapshot
  | .validated _ _ snapshot | .ready _ _ snapshot _ => P snapshot
  | _ => True

structure PlanRun.Holds (P : Snapshot → Prop) (s : PlanRun) : Prop where
  versions : ∀ row ∈ s.versions, P row.snapshot
  attempts : ∀ attempt ∈ s.attempts, attempt.phase.Holds P

namespace PlanRun.Holds
variable {P : Snapshot → Prop} {s t : PlanRun}

theorem setPhase (holds : s.Holds P) {index : Nat} {attempt : Attempt} {phase : Phase}
    (held : phase.Holds P) : (s.setPhase index attempt phase).Holds P := by
  refine ⟨holds.versions, fun other member => ?_⟩
  rcases List.mem_or_eq_of_mem_set member with before | rfl
  · exact holds.attempts other before
  · exact held

/-- One access of an attempt. -/
theorem proceed (kept : Kept P) (holds : s.Holds P) {provider : MapProvider} {attempt : Attempt}
    (held : attempt.phase.Holds P) :
    (s.proceed provider attempt).1.Holds P ∧ (s.proceed provider attempt).2.Holds P := by
  obtain ⟨kind, patchId, phase⟩ := attempt
  cases phase with
  | begun =>
      simp only [PlanRun.proceed]
      split
      · exact ⟨holds, trivial⟩
      · split
        · exact ⟨holds, trivial⟩
        · split <;> exact ⟨holds, trivial⟩
  | rejecting patch => exact ⟨⟨holds.versions, holds.attempts⟩, trivial⟩
  | loaded patch =>
      simp only [PlanRun.proceed]
      split
      · rename_i row latest
        split
        · exact ⟨holds, holds.versions row (latestVersion_mem latest)⟩
        · exact ⟨holds, trivial⟩
      · exact ⟨holds, trivial⟩
  | checked patch base =>
      simp only [PlanRun.proceed]
      split
      · exact ⟨holds, trivial⟩
      · rename_i snapshot conflicts validated
        split
        · rename_i empty
          subst empty
          exact ⟨holds, kept provider base.snapshot patch snapshot validated held⟩
        · exact ⟨holds, trivial⟩
  | blocking patch => exact ⟨⟨holds.versions, holds.attempts⟩, trivial⟩
  | validated patch current snapshot => exact ⟨holds, held⟩
  | ready patch current snapshot selected =>
      simp only [PlanRun.proceed]
      split
      · exact ⟨holds, trivial⟩
      · refine ⟨⟨fun row member => ?_, holds.attempts⟩, trivial⟩
        rcases List.mem_append.mp member with before | last
        · exact holds.versions row before
        · exact List.mem_singleton.mp last ▸ held
  | ended outcome => exact ⟨holds, trivial⟩

theorem of_same (holds : s.Holds P) (versions : t.versions = s.versions)
    (attempts : t.attempts = s.attempts) : t.Holds P :=
  ⟨versions ▸ holds.versions, attempts ▸ holds.attempts⟩

theorem step (kept : Kept P) (holds : s.Holds P) {action : PlanAction}
    (stepped : s.step action = some t) : t.Holds P := by
  cases action with
  | createPatch baseVersion operations reason impact =>
      simp only [PlanRun.step] at stepped
      split at stepped
      · cases stepped
        exact holds.of_same rfl rfl
      · contradiction
  | replan trip solver maxReplansPerTrip provider request =>
      simp only [PlanRun.step] at stepped
      split at stepped
      · cases stepped
        exact holds.of_same recordReplan_calm.versions recordReplan_attempts
      · contradiction
  | review patchId tripId review requiresConfirmation optIn =>
      cases stepped
      exact holds.of_same recordReview_calm.versions recordReview_attempts
  | startTrip optIn =>
      obtain ⟨row, -, rfl⟩ := Option.map_eq_some_iff.mp stepped
      exact holds.of_same rfl rfl
  | begin kind patchId =>
      cases stepped
      refine ⟨holds.versions, fun attempt member => ?_⟩
      rcases List.mem_append.mp member with before | last
      · exact holds.attempts attempt before
      · rw [List.mem_singleton.mp last]
        trivial
  | advance index provider =>
      obtain ⟨attempt, running, rfl⟩ := Option.map_eq_some_iff.mp stepped
      have held := holds.attempts attempt (List.mem_of_getElem? (running_some running).1)
      obtain ⟨after, phase⟩ := holds.proceed kept held
      exact after.setPhase phase
  | crash index =>
      obtain ⟨attempt, -, rfl⟩ := Option.map_eq_some_iff.mp stepped
      exact holds.setPhase trivial

theorem of_reaches (kept : Kept P) (path : planRunMachine.Reaches s t) (holds : s.Holds P) :
    t.Holds P :=
  path.invariant (fun holds stepped => holds.step kept stepped) holds

end PlanRun.Holds

/-- Snapshots that an attempt holds have a label. -/
def Phase.Labelled (label : Option String × Option Nat) : Phase → Prop
  | .checked _ base => base.snapshot.label = label
  | .validated _ _ snapshot | .ready _ _ snapshot _ => snapshot.label = label
  | _ => True

structure PlanRun.Labelled (label : Option String × Option Nat) (s : PlanRun) : Prop where
  versions : ∀ row ∈ s.versions, row.snapshot.label = label
  attempts : ∀ attempt ∈ s.attempts, attempt.phase.Labelled label

section

variable {label : Option String × Option Nat} {s t : PlanRun}

theorem label_kept : Kept fun snapshot => snapshot.label = label :=
  fun _ _ _ _ validated labelled => (validatePatch_label validated).trans labelled

theorem Phase.labelled_iff {phase : Phase} :
    phase.Labelled label ↔ phase.Holds fun snapshot => snapshot.label = label := by
  cases phase <;> rfl

theorem PlanRun.labelled_iff :
    s.Labelled label ↔ s.Holds fun snapshot => snapshot.label = label :=
  ⟨fun labelled => ⟨labelled.versions, fun attempt member =>
      Phase.labelled_iff.mp (labelled.attempts attempt member)⟩,
    fun holds => ⟨holds.versions, fun attempt member =>
      Phase.labelled_iff.mpr (holds.attempts attempt member)⟩⟩

theorem PlanRun.Labelled.step (labelled : s.Labelled label) {action : PlanAction}
    (stepped : s.step action = some t) : t.Labelled label :=
  PlanRun.labelled_iff.mpr ((PlanRun.labelled_iff.mp labelled).step label_kept stepped)

end

end MapGo.Patch
