import MapGo.Patch.Versioning

/-! The two acceptances of a patch on the tables they read and write, without another writer: the
decision of a user through the API and the application by a workflow. Each is written out as its
source has it, and they agree for the owner of the patch. -/
namespace MapGo.Patch

structure PlanningRun where
  id : Nat
  userId : Nat
  deriving DecidableEq

structure VersionRow extends PlanVersion where
  planningRunId : Nat
  userId : Nat

/-- `impactJson` is `none` for an empty text. -/
structure PatchRow where
  id : Nat
  planningRunId : Nat
  userId : Nat
  baseVersion : Nat
  operations : List Operation
  reason : String
  impactJson : Option Impact
  status : PatchStatus

structure TripSessionRow where
  id : Nat
  planningRunId : Nat
  userId : Nat
  state : TripState
  currentPlanVersion : Nat
  deriving DecidableEq

structure TripEventRow where
  tripSessionId : Nat
  eventId : String
  deriving DecidableEq

structure AgentWorkflowRun where
  id : Nat
  planningRunId : Option Nat
  deriving DecidableEq

inductive ArtifactStatus where
  | active | stale
  deriving DecidableEq

structure AgentArtifact where
  id : Nat
  workflowRunId : Nat
  status : ArtifactStatus
  planVersion : Option Nat
  deriving DecidableEq

structure Database where
  runs : List PlanningRun
  versions : List VersionRow
  patches : List PatchRow
  trips : List TripSessionRow := []
  events : List TripEventRow := []
  workflows : List AgentWorkflowRun := []
  artifacts : List AgentArtifact := []

/-- What a successful decision answers. -/
inductive PatchDecision where
  | rejected
  | accepted (planVersion : Nat) (snapshot : Snapshot)

namespace Database

def newer (newest : Option VersionRow) (row : VersionRow) : Option VersionRow :=
  match newest with
  | none => some row
  | some kept => if kept.version < row.version then some row else some kept

/-- `ORDER BY version DESC LIMIT 1` -/
def newestVersion (db : Database) (runId : Nat) : Option VersionRow :=
  (db.versions.filter (·.planningRunId = runId)).foldl newer none

def setStatus (db : Database) (patchId : Nat) (status : PatchStatus) : Database :=
  { db with patches := db.patches.map fun patch =>
      if patch.id = patchId then { patch with status := status } else patch }

/-- `none` is an `IntegrityError` of `(planning_run_id, version)`. -/
def insertVersion (db : Database) (row : VersionRow) : Option Database :=
  if db.versions.any fun old => old.planningRunId = row.planningRunId ∧ old.version = row.version
  then none
  else some { db with versions := db.versions ++ [row] }

/-- One event for each trip; `none` is an `IntegrityError` of `(trip_session_id, event_id)`. -/
def insertEvents (db : Database) (trips : List TripSessionRow) (eventId : String) : Option Database :=
  if db.events.any fun event => event.eventId = eventId ∧
      trips.any fun trip => trip.id = event.tripSessionId
  then none
  else some { db with events := db.events ++ trips.map fun trip => ⟨trip.id, eventId⟩ }

def tripsOn (db : Database) (runId version : Nat) : List TripSessionRow :=
  db.trips.filter fun trip => trip.planningRunId = runId ∧ trip.currentPlanVersion = version

/-- The selected trips follow a version. -/
def moveTrips (db : Database) (selected : List TripSessionRow) (version : Nat) : Database :=
  { db with trips := db.trips.map fun trip =>
      if selected.any (·.id = trip.id) then
        { trip with
          currentPlanVersion := version
          state := if trip.state = .replanning then .activeTrip else trip.state }
      else trip }

/-- Active artifacts of the run's workflows are stale from a version on. -/
def staleArtifacts (db : Database) (runId version : Nat) : Database :=
  let workflows := (db.workflows.filter (·.planningRunId = some runId)).map AgentWorkflowRun.id
  { db with artifacts := db.artifacts.map fun artifact =>
      if artifact.workflowRunId ∈ workflows ∧ artifact.status = .active ∧
          (artifact.planVersion.all fun planned => planned < version)
      then { artifact with status := .stale }
      else artifact }

end Database

def planRunNotFound : AppError := ⟨404, "PLAN_RUN_NOT_FOUND", "规划记录不存在"⟩

def baseVersionMissing : AppError := ⟨409, "PLAN_VERSION_MISSING", "补丁引用的计划版本不存在"⟩

def decidedEvent (patchId : Nat) (decision : String) : String :=
  "patch-" ++ toString patchId ++ "-" ++ decision

/-- `_recalculate_snapshot` -/
def recalculateSnapshot (provider : MapProvider) (snapshot : Snapshot) (stops : List Stop)
    (replanContext : Option ReplanContext) : Except Failure (Snapshot × List String) :=
  recalculateAndValidateSnapshot provider snapshot stops replanContext

namespace Database

/-- `decide_plan_patch`. A failed insertion is raised by the flush of the next query. -/
def decidePlanPatch (db : Database) (provider : MapProvider) (runId patchId : Nat) (accept : Bool)
    (userId : Nat) : Except Failure PatchDecision × Database :=
  if ¬ db.runs.any fun run => run.id = runId ∧ run.userId = userId then
    (.error (.app planRunNotFound), db)
  else
    match db.patches.find? fun patch =>
        patch.id = patchId ∧ patch.planningRunId = runId ∧ patch.userId = userId with
    | none => (.error (.app patchNotFound), db)
    | some patch =>
        if patch.status ≠ .pending then (.error (.app AttemptKind.accept.alreadyDecided), db)
        else if ¬ accept then
          let trips := db.trips.filter fun trip =>
            trip.planningRunId = runId ∧ trip.userId = userId
          match (db.setStatus patch.id .rejected).insertEvents trips
              (decidedEvent patch.id "rejected") with
          | none => (.error .raised, db)
          | some rejected => (.ok .rejected, rejected)
        else
          let current := (db.newestVersion runId).map fun row => row.version
          if current ≠ some patch.baseVersion then
            (.error (.app AttemptKind.accept.staleBase), db)
          else
            match db.versions.find? fun row =>
                row.planningRunId = runId ∧ row.version = patch.baseVersion with
            | none => (.error (.app baseVersionMissing), db)
            | some base =>
                match applyPatchStructure base.snapshot patch.operations with
                | .error error => (.error (.app error), db)
                | .ok (structured, stops) =>
                    match patch.impactJson with
                    | none => (.error .raised, db)
                    | some impact =>
                        match recalculateSnapshot provider structured stops impact.replanContext with
                        | .error failure => (.error failure, db)
                        | .ok (snapshot, conflicts) =>
                            if conflicts ≠ [] then
                              (.error (.app AttemptKind.accept.infeasible),
                                db.setStatus patch.id .blocked)
                            else
                              let next := patch.baseVersion + 1
                              let row : VersionRow :=
                                { version := next
                                  snapshot := snapshot
                                  changeReason := patch.reason
                                  planningRunId := runId
                                  userId := userId }
                              match (db.setStatus patch.id .accepted).insertVersion row with
                              | none => (.error .raised, db)
                              | some inserted =>
                                  let trips := inserted.tripsOn runId patch.baseVersion
                                  match (inserted.moveTrips trips next).insertEvents trips
                                      (decidedEvent patch.id "accepted") with
                                  | none => (.error .raised, db)
                                  | some moved =>
                                      (.ok (.accepted next snapshot),
                                        moved.staleArtifacts runId next)

/-- `apply_plan_patch_cas` -/
def applyPlanPatchCas (db : Database) (provider : MapProvider) (patchId : Nat) :
    Except Failure PatchDecision × Database :=
  match db.patches.find? (·.id = patchId) with
  | none => (.error (.app patchNotFound), db)
  | some patch =>
      if patch.status ≠ .pending then (.error (.app AttemptKind.automatic.alreadyDecided), db)
      else
        match db.newestVersion patch.planningRunId with
        | none => (.error (.app AttemptKind.automatic.staleBase), db)
        | some currentRow =>
            let current := currentRow.version
            if current ≠ patch.baseVersion then
              (.error (.app AttemptKind.automatic.staleBase), db)
            else
              match applyPatchStructure currentRow.snapshot patch.operations with
              | .error error => (.error (.app error), db)
              | .ok (structured, stops) =>
                  -- `json.loads(patch.impact_json or "{}")`
                  let impact := patch.impactJson.getD {}
                  match recalculateAndValidateSnapshot provider structured stops
                      impact.replanContext with
                  | .error failure => (.error failure, db)
                  | .ok (snapshot, conflicts) =>
                      if conflicts ≠ [] then
                        (.error (.app AttemptKind.automatic.infeasible),
                          db.setStatus patch.id .blocked)
                      else
                        let nextVersion := current + 1
                        let row : VersionRow :=
                          { version := nextVersion
                            snapshot := snapshot
                            changeReason := patch.reason
                            planningRunId := patch.planningRunId
                            userId := patch.userId }
                        match (db.setStatus patch.id .accepted).insertVersion row with
                        | none => (.error .raised, db)
                        | some inserted =>
                            let trips := inserted.tripsOn patch.planningRunId current
                            match (inserted.moveTrips trips nextVersion).insertEvents trips
                                (decidedEvent patch.id "accepted") with
                            | none => (.error .raised, db)
                            | some moved =>
                                (.ok (.accepted nextVersion snapshot),
                                  moved.staleArtifacts patch.planningRunId nextVersion)

/-- Keys are unique, impacts are objects and a patch belongs to the owner of its run. -/
structure WellFormed (db : Database) : Prop where
  patchIds : (db.patches.map PatchRow.id).Nodup
  versionKeys : (db.versions.map fun row => (row.planningRunId, row.version)).Nodup
  impacts : ∀ patch ∈ db.patches, patch.impactJson ≠ none
  owners : ∀ patch ∈ db.patches, ∃ run ∈ db.runs, run.id = patch.planningRunId ∧
    run.userId = patch.userId

/-- Both refuse or both succeed with one answer, and they leave the same tables. -/
def Agree (left right : Except Failure PatchDecision × Database) : Prop :=
  left.1.toOption = right.1.toOption ∧ left.2 = right.2

variable {db after : Database} {patch : PatchRow}

theorem find?_unique {α κ : Type} {rows : List α} {key : α → κ} (distinct : (rows.map key).Nodup)
    {row : α} (member : row ∈ rows) {test : α → Bool} (passes : test row = true)
    (only : ∀ other, test other = true → key other = key row) : rows.find? test = some row := by
  have found : (rows.find? test).isSome = true := List.find?_isSome.mpr ⟨row, member, passes⟩
  obtain ⟨first, first_eq⟩ := Option.isSome_iff_exists.mp found
  have same := only first (List.find?_some first_eq)
  rw [first_eq, List.inj_on_of_nodup_map distinct (List.mem_of_find?_eq_some first_eq) member same]

theorem newestVersion_mem {runId : Nat} {row : VersionRow}
    (newest : db.newestVersion runId = some row) :
    row ∈ db.versions ∧ row.planningRunId = runId := by
  have all (rows : List VersionRow) (start : Option VersionRow)
      (folded : rows.foldl newer start = some row) : row ∈ rows ∨ start = some row := by
    induction rows generalizing start with
    | nil => exact .inr folded
    | cons first rest ih =>
        rcases ih _ folded with later | now
        · exact .inl (List.mem_cons_of_mem _ later)
        · unfold newer at now
          split at now
          · exact .inl (Option.some.inj now ▸ List.mem_cons_self)
          · split at now
            · exact .inl (Option.some.inj now ▸ List.mem_cons_self)
            · exact .inr now
  rcases all _ none newest with inside | absent
  · obtain ⟨member, run⟩ := List.mem_filter.mp inside
    exact ⟨member, of_decide_eq_true run⟩
  · contradiction

namespace WellFormed

theorem owner (wellFormed : db.WellFormed) (member : patch ∈ db.patches) :
    (db.runs.any fun run => run.id = patch.planningRunId ∧ run.userId = patch.userId) = true := by
  obtain ⟨run, present, same⟩ := wellFormed.owners patch member
  exact List.any_eq_true.mpr ⟨run, present, decide_eq_true same⟩

/-- The base version that the decision looks up is the newest one that it has compared. -/
theorem base (wellFormed : db.WellFormed) {runId version : Nat} {row : VersionRow}
    (newest : db.newestVersion runId = some row) (same : row.version = version) :
    (db.versions.find? fun other => other.planningRunId = runId ∧ other.version = version) =
      some row := by
  obtain ⟨member, run⟩ := newestVersion_mem newest
  refine find?_unique wellFormed.versionKeys member (decide_eq_true ⟨run, same⟩) ?_
  intro other passes
  have keys := of_decide_eq_true passes
  rw [keys.1, keys.2, run, same]

end WellFormed

theorem owner_agrees (wellFormed : db.WellFormed) (provider : MapProvider)
    (member : patch ∈ db.patches) :
    Agree (db.decidePlanPatch provider patch.planningRunId patch.id true patch.userId)
      (db.applyPlanPatchCas provider patch.id) := by
  have decided : (db.patches.find? fun other => other.id = patch.id ∧
      other.planningRunId = patch.planningRunId ∧ other.userId = patch.userId) = some patch :=
    find?_unique wellFormed.patchIds member (decide_eq_true ⟨rfl, rfl, rfl⟩)
      fun other passes => (of_decide_eq_true passes).1
  have applied : (db.patches.find? (·.id = patch.id)) = some patch :=
    find?_unique wellFormed.patchIds member (decide_eq_true rfl) fun other => of_decide_eq_true
  rw [decidePlanPatch, applyPlanPatchCas, if_neg (not_not_intro (wellFormed.owner member)), decided,
    applied]
  dsimp only
  by_cases undecided : patch.status = .pending
  · rw [if_neg (not_not_intro undecided), if_neg (not_not_intro undecided), if_neg (not_not_intro rfl)]
    cases newest : db.newestVersion patch.planningRunId with
    | none => exact ⟨rfl, rfl⟩
    | some row =>
        by_cases same : row.version = patch.baseVersion
        · have current : some row.version = some patch.baseVersion := congrArg some same
          rw [Option.map_some, if_neg (not_not_intro current), wellFormed.base newest same]
          dsimp only
          rw [if_neg (not_not_intro same), same]
          cases applyPatchStructure row.snapshot patch.operations with
          | error error => exact ⟨rfl, rfl⟩
          | ok structured =>
              obtain ⟨impact, present⟩ := Option.ne_none_iff_exists'.mp (wellFormed.impacts patch member)
              rw [present]
              dsimp only [Option.getD_some, recalculateSnapshot]
              cases recalculateAndValidateSnapshot provider structured.1 structured.2
                  impact.replanContext with
              | error failure => exact ⟨rfl, rfl⟩
              | ok validated =>
                  dsimp only
                  by_cases clean : validated.2 = []
                  · rw [if_neg (not_not_intro clean), if_neg (not_not_intro clean)]
                    exact ⟨rfl, rfl⟩
                  · rw [if_pos clean, if_pos clean]
                    exact ⟨rfl, rfl⟩
        · have other : some row.version ≠ some patch.baseVersion := fun equal =>
            same (Option.some.inj equal)
          rw [Option.map_some, if_pos other]
          dsimp only
          rw [if_pos same]
          exact ⟨rfl, rfl⟩
  · rw [if_pos undecided, if_pos undecided]
    exact ⟨rfl, rfl⟩

/-- Anyone else is refused. -/
theorem decidePlanPatch_refused {provider : MapProvider} {runId patchId userId : Nat} {accept : Bool}
    (other : ∀ patch ∈ db.patches, patch.id = patchId →
      ¬ (patch.planningRunId = runId ∧ patch.userId = userId)) :
    ∃ failure, db.decidePlanPatch provider runId patchId accept userId = (.error failure, db) := by
  have absent : (db.patches.find? fun patch => patch.id = patchId ∧ patch.planningRunId = runId ∧
      patch.userId = userId) = none := by
    refine List.find?_eq_none.mpr fun patch member passes => ?_
    have same := of_decide_eq_true passes
    exact other patch member same.1 same.2
  rw [decidePlanPatch, absent]
  split <;> exact ⟨_, rfl⟩

theorem applyPlanPatchCas_missing {provider : MapProvider} {patchId : Nat}
    (missing : ∀ patch ∈ db.patches, patch.id ≠ patchId) :
    ∃ failure, db.applyPlanPatchCas provider patchId = (.error failure, db) := by
  have absent : (db.patches.find? (·.id = patchId)) = none :=
    List.find?_eq_none.mpr fun patch member passes =>
      missing patch member (of_decide_eq_true passes)
  rw [applyPlanPatchCas, absent]
  exact ⟨_, rfl⟩

/-! ### The keys stay unique -/

theorem setStatus_wellFormed (wellFormed : db.WellFormed) (patchId : Nat) (status : PatchStatus) :
    (db.setStatus patchId status).WellFormed where
  patchIds := by
    have same : (db.setStatus patchId status).patches.map PatchRow.id =
        db.patches.map PatchRow.id := by
      rw [setStatus, List.map_map]
      refine List.map_congr_left fun patch _ => ?_
      by_cases decided : patch.id = patchId <;> simp [decided]
    rw [same]
    exact wellFormed.patchIds
  versionKeys := wellFormed.versionKeys
  impacts patch member := by
    obtain ⟨old, present, rfl⟩ := List.mem_map.mp member
    by_cases decided : old.id = patchId
    · simpa [decided] using wellFormed.impacts old present
    · simpa [decided] using wellFormed.impacts old present
  owners patch member := by
    obtain ⟨old, present, rfl⟩ := List.mem_map.mp member
    have owner := wellFormed.owners old present
    by_cases decided : old.id = patchId
    · simpa [decided, setStatus] using owner
    · simpa [decided, setStatus] using owner

theorem insertVersion_wellFormed (wellFormed : db.WellFormed) {row : VersionRow}
    (inserted : db.insertVersion row = some after) : after.WellFormed := by
  unfold insertVersion at inserted
  split at inserted
  · contradiction
  · rename_i free
    cases inserted
    refine { wellFormed with versionKeys := ?_ }
    rw [List.map_append]
    refine List.nodup_append.mpr ⟨wellFormed.versionKeys, List.nodup_singleton _, ?_⟩
    intro key before new last same
    obtain ⟨old, member, rfl⟩ := List.mem_map.mp before
    have keys := same.trans (List.mem_singleton.mp last)
    obtain ⟨run, version⟩ := Prod.mk.inj keys
    exact free (List.any_eq_true.mpr ⟨old, member, decide_eq_true ⟨run, version⟩⟩)

theorem insertEvents_wellFormed (wellFormed : db.WellFormed) {trips : List TripSessionRow}
    {eventId : String} (inserted : db.insertEvents trips eventId = some after) :
    after.WellFormed := by
  unfold insertEvents at inserted
  split at inserted
  · contradiction
  · cases inserted
    exact { wellFormed with }

theorem applyPlanPatchCas_wellFormed (wellFormed : db.WellFormed) (provider : MapProvider)
    (patchId : Nat) : (db.applyPlanPatchCas provider patchId).2.WellFormed := by
  unfold applyPlanPatchCas
  cases db.patches.find? (·.id = patchId) with
  | none => exact wellFormed
  | some patch =>
      dsimp only
      split
      · exact wellFormed
      · cases db.newestVersion patch.planningRunId with
        | none => exact wellFormed
        | some row =>
            dsimp only
            split
            · exact wellFormed
            · cases applyPatchStructure row.snapshot patch.operations with
              | error error => exact wellFormed
              | ok structured =>
                  dsimp only
                  cases recalculateAndValidateSnapshot provider structured.1 structured.2
                      (patch.impactJson.getD {}).replanContext with
                  | error failure => exact wellFormed
                  | ok validated =>
                      dsimp only
                      split
                      · exact setStatus_wellFormed wellFormed _ _
                      · split
                        · exact wellFormed
                        · rename_i inserted stored
                          have grown := insertVersion_wellFormed
                            (setStatus_wellFormed wellFormed _ _) stored
                          split
                          · exact wellFormed
                          · rename_i moved written
                            have moves : (inserted.moveTrips (inserted.tripsOn patch.planningRunId
                                row.version) (row.version + 1)).WellFormed := { grown with }
                            have final := insertEvents_wellFormed moves written
                            exact { final with }

end Database

/-- On well-formed tables, the acceptance of a patch by its owner agrees with the application of the
patch, which keeps the tables well formed; for a patch that does not exist both are refused. What
anyone else decides is refused and leaves the tables alone. -/
theorem acceptances_agree (db : Database) (wellFormed : db.WellFormed) (provider : MapProvider) :
    (∀ patch ∈ db.patches,
      Database.Agree (db.decidePlanPatch provider patch.planningRunId patch.id true patch.userId)
        (db.applyPlanPatchCas provider patch.id) ∧
      (db.applyPlanPatchCas provider patch.id).2.WellFormed) ∧
    (∀ patchId, (∀ patch ∈ db.patches, patch.id ≠ patchId) → ∀ runId userId,
      Database.Agree (db.decidePlanPatch provider runId patchId true userId)
        (db.applyPlanPatchCas provider patchId)) ∧
    ∀ patchId runId userId, (∀ patch ∈ db.patches, patch.id = patchId →
      ¬ (patch.planningRunId = runId ∧ patch.userId = userId)) →
        ∃ failure, db.decidePlanPatch provider runId patchId true userId = (.error failure, db) := by
  refine ⟨fun patch member => ?_, fun patchId missing runId userId => ?_, ?_⟩
  · exact ⟨Database.owner_agrees wellFormed provider member,
      Database.applyPlanPatchCas_wellFormed wellFormed provider patch.id⟩
  · have stranger (patch : PatchRow) (member : patch ∈ db.patches) (same : patch.id = patchId) :
        ¬ (patch.planningRunId = runId ∧ patch.userId = userId) := absurd same (missing patch member)
    obtain ⟨denied, decided⟩ := Database.decidePlanPatch_refused stranger
    obtain ⟨refused, applied⟩ := Database.applyPlanPatchCas_missing missing
    rw [decided, applied]
    exact ⟨rfl, rfl⟩
  · intro patchId runId userId stranger
    exact Database.decidePlanPatch_refused stranger

/-! A pending patch of run 7 swaps the stops of a plan that a trip follows while it is replanned. -/

def swapPatch : PatchRow where
  id := 3
  planningRunId := 7
  userId := 5
  baseVersion := 1
  operations := [.moveStop (some 0) (some 1)]
  reason := "换序"
  impactJson := some {}
  status := .pending

def museumTables : Database where
  runs := [⟨7, 5⟩]
  versions := [{ version := 1, snapshot := museumPlan, changeReason := "initial_plan"
                 planningRunId := 7, userId := 5 }]
  patches := [swapPatch]
  trips := [⟨0, 7, 5, .replanning, 1⟩]
  workflows := [⟨4, some 7⟩]
  artifacts := [⟨9, 4, .active, none⟩]

theorem museumTables_wellFormed : museumTables.WellFormed where
  patchIds := by decide
  versionKeys := by decide
  impacts := by decide
  owners patch member := by
    rw [List.mem_singleton.mp member]
    exact ⟨⟨7, 5⟩, List.mem_cons_self, rfl, rfl⟩

theorem acceptances_agree_swapped :
    Database.Agree (museumTables.decidePlanPatch evenProvider 7 3 true 5)
      (museumTables.applyPlanPatchCas evenProvider 3) ∧
    (museumTables.applyPlanPatchCas evenProvider 3).1.toOption.isSome = true ∧
    (museumTables.applyPlanPatchCas evenProvider 3).2.trips = [⟨0, 7, 5, .activeTrip, 2⟩] ∧
    (museumTables.applyPlanPatchCas evenProvider 3).2.artifacts = [⟨9, 4, .stale, none⟩] := by
  have agreed := (acceptances_agree museumTables museumTables_wellFormed evenProvider).1 swapPatch
    List.mem_cons_self
  exact ⟨agreed.1, by decide +kernel, by decide +kernel, by decide +kernel⟩

end MapGo.Patch
