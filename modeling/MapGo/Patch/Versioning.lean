import MapGo.Transition
import MapGo.Patch.Validate

/-! The versions of one planning run. Users decide patches through the API and the
worker applies them on its own; both read, validate and commit in separate steps,
and any number of such attempts interleave. Locks are left out: a commit fails only
where its version exists, by the uniqueness of `(planning_run_id, version)`. -/
namespace MapGo.Patch

open Transition MapGo.Route

inductive AttemptKind where
  /-- `decide_plan_patch` with `accept` -/
  | accept
  /-- `decide_plan_patch` without `accept` -/
  | reject
  /-- `apply_plan_patch_cas` -/
  | automatic
  deriving DecidableEq, Repr

inductive Outcome where
  | rejected
  | accepted (version : Nat)
  | failed (failure : Failure)
  deriving DecidableEq, Repr

/-- What an attempt has read so far. -/
inductive Phase where
  | begun
  | rejecting (patch : PlanPatch)
  | loaded (patch : PlanPatch)
  | checked (patch : PlanPatch) (base : PlanVersion)
  | blocking (patch : PlanPatch)
  | validated (patch : PlanPatch) (current : Nat) (snapshot : Snapshot)
  | ready (patch : PlanPatch) (current : Nat) (snapshot : Snapshot) (trips : List TripSession)
  | ended (outcome : Outcome)

structure Attempt where
  kind : AttemptKind
  patchId : Nat
  phase : Phase

structure PlanRun where
  versions : List PlanVersion
  patches : List PlanPatch := []
  trips : List TripSession := []
  nextPatchId : Nat := 1
  attempts : List Attempt := []
  /-- History: the patch and the version of every commit. -/
  commits : List (Nat × Nat) := []

inductive PlanAction where
  | createPatch (baseVersion : Nat) (operations : List Operation) (reason : String) (impact : Impact)
  | replan (trip : TripSession) (solver : RoutingSolver) (maxReplansPerTrip : Nat)
      (provider : MapProvider) (request : PendingReplanRequest)
  | review (patchId tripId : Nat) (review : DynamicPatchReview) (requiresConfirmation : Bool)
      (optIn : Bool)
  | startTrip (optIn : Bool)
  | begin (kind : AttemptKind) (patchId : Nat)
  | advance (index : Nat) (provider : MapProvider)
  | crash (index : Nat)

/-- The row with the greatest version. -/
def latestVersion (versions : List PlanVersion) : Option PlanVersion :=
  versions.foldl (fun latest row => match latest with
    | none => some row
    | some kept => if kept.version < row.version then some row else some kept) none

namespace AttemptKind

def alreadyDecided : AttemptKind → AppError
  | .automatic => ⟨409, "PLAN_PATCH_ALREADY_DECIDED", "计划补丁已经处理"⟩
  | _ => ⟨409, "PLAN_PATCH_ALREADY_DECIDED", "该补丁已经处理"⟩

def staleBase : AttemptKind → AppError
  | .automatic => ⟨409, "PLAN_VERSION_CONFLICT", "计划版本已经变化，旧补丁不能继续应用"⟩
  | _ => ⟨409, "PLAN_VERSION_CONFLICT", "计划已更新，不能再应用旧补丁"⟩

def infeasible : AttemptKind → AppError
  | .automatic => ⟨409, "PATCH_INFEASIBLE", "补丁违反硬约束，正式计划未修改"⟩
  | _ => ⟨409, "PATCH_INFEASIBLE", "补丁会破坏硬约束，未修改正式计划"⟩

def otherWriter : AttemptKind → AppError
  | .automatic => ⟨409, "PLAN_VERSION_CONFLICT", "相同行程版本已存在有效写入者"⟩
  | _ => ⟨409, "PLAN_VERSION_CONFLICT", "计划已由另一个写入者更新，请基于最新版本重新生成补丁"⟩

end AttemptKind

def patchNotFound : AppError := ⟨404, "PLAN_PATCH_NOT_FOUND", "计划补丁不存在"⟩

/-- The patched and validated snapshot of a base version with its conflicts. -/
def validatePatch (provider : MapProvider) (base : Snapshot) (patch : PlanPatch) :
    Except Failure (Snapshot × List String) :=
  match applyPatchStructure base patch.operations with
  | .error error => .error (.app error)
  | .ok (snapshot, stops) =>
      recalculateAndValidateSnapshot provider snapshot stops patch.impact.replanContext

namespace PlanRun

def mapPatch (s : PlanRun) (id : Nat) (f : PlanPatch → PlanPatch) : PlanRun :=
  { s with patches := s.patches.map fun patch => if patch.id = id then f patch else patch }

def mapTrip (s : PlanRun) (id : Nat) (f : TripSession → TripSession) : PlanRun :=
  { s with trips := s.trips.map fun trip => if trip.id = id then f trip else trip }

def setStatus (s : PlanRun) (id : Nat) (status : PatchStatus) : PlanRun :=
  s.mapPatch id fun patch => { patch with status := status }

def addPatch (s : PlanRun) (baseVersion : Nat) (operations : List Operation) (reason : String)
    (impact : Impact) : PlanRun :=
  { s with
    patches := s.patches ++ [⟨s.nextPatchId, baseVersion, operations, reason, impact, .pending⟩]
    nextPatchId := s.nextPatchId + 1 }

/-- What `create_pending_replan` writes, with the trip as its session holds it. -/
def recordReplan (s : PlanRun) (trip : TripSession) (reason : String) : Replanned → PlanRun
  | .created operations impact _ =>
      (s.addPatch trip.currentPlanVersion operations reason impact).mapTrip trip.id fun row =>
        { row with
          state := .replanning
          replanCount := trip.replanCount + 1
          autoApplyLowRiskPatches := trip.autoApplyLowRiskPatches }
  | .noFeasibleReplan _ _ => s.mapTrip trip.id fun row => { row with state := .atRisk }
  | .stillFeasible _ _ => s.mapTrip trip.id fun row => { row with state := .activeTrip }
  | .budgetExceeded => s
  | .deduplicated _ _ => s

/-- What the critic writes on the patch and the trip. -/
def recordReview (s : PlanRun) (patchId tripId : Nat) (review : DynamicPatchReview)
    (requiresConfirmation optIn : Bool) : PlanRun :=
  let s := s.mapPatch patchId fun patch => { patch with
    impact := { patch.impact with
      criticReview := some review
      requiresConfirmation := some requiresConfirmation
      autoApplyOptIn := some optIn } }
  if review.verdict = .blocked then
    (s.setStatus patchId .blocked).mapTrip tripId fun row => { row with state := .atRisk }
  else s

/-- The commit of an accepted patch; selected trips follow with the state they were read with. -/
def commit (s : PlanRun) (patch : PlanPatch) (version : Nat) (snapshot : Snapshot)
    (selected : List TripSession) : PlanRun :=
  { s.setStatus patch.id .accepted with
    versions := s.versions ++ [⟨version, snapshot, patch.reason⟩]
    trips := s.trips.map fun row =>
      match selected.find? (·.id = row.id) with
      | some trip => { row with
          currentPlanVersion := version
          state := if trip.state = .replanning then .activeTrip else row.state }
      | none => row
    commits := s.commits ++ [(patch.id, version)] }

/-- One database access or computation of an attempt. -/
def proceed (s : PlanRun) (provider : MapProvider) (attempt : Attempt) : PlanRun × Phase :=
  match attempt.phase with
  | .begun =>
      match s.patches.find? (·.id = attempt.patchId) with
      | none => (s, .ended (.failed (.app patchNotFound)))
      | some patch =>
          if patch.status ≠ .pending then
            (s, .ended (.failed (.app attempt.kind.alreadyDecided)))
          else if attempt.kind = .reject then (s, .rejecting patch)
          else (s, .loaded patch)
  | .rejecting patch => (s.setStatus patch.id .rejected, .ended .rejected)
  | .loaded patch =>
      match latestVersion s.versions with
      | some row =>
          if row.version = patch.baseVersion then (s, .checked patch row)
          else (s, .ended (.failed (.app attempt.kind.staleBase)))
      | none => (s, .ended (.failed (.app attempt.kind.staleBase)))
  | .checked patch base =>
      match validatePatch provider base.snapshot patch with
      | .error failure => (s, .ended (.failed failure))
      | .ok (snapshot, conflicts) =>
          if conflicts = [] then (s, .validated patch base.version snapshot)
          else (s, .blocking patch)
  | .blocking patch =>
      (s.setStatus patch.id .blocked, .ended (.failed (.app attempt.kind.infeasible)))
  | .validated patch current snapshot =>
      (s, .ready patch current snapshot
        (s.trips.filter fun trip => trip.currentPlanVersion = current))
  | .ready patch current snapshot selected =>
      if s.versions.any (·.version = current + 1) then
        (s, .ended (.failed (.app attempt.kind.otherWriter)))
      else (s.commit patch (current + 1) snapshot selected, .ended (.accepted (current + 1)))
  | .ended outcome => (s, .ended outcome)

def beginAttempt (s : PlanRun) (kind : AttemptKind) (patchId : Nat) : PlanRun :=
  { s with attempts := s.attempts ++ [⟨kind, patchId, .begun⟩] }

def setPhase (s : PlanRun) (index : Nat) (attempt : Attempt) (phase : Phase) : PlanRun :=
  { s with attempts := s.attempts.set index { attempt with phase := phase } }

/-- The attempts that have not returned yet. -/
def running (s : PlanRun) (index : Nat) : Option Attempt :=
  (s.attempts[index]?).filter fun attempt => match attempt.phase with
    | .ended _ => false
    | _ => true

def advance (s : PlanRun) (index : Nat) (provider : MapProvider) : Option PlanRun :=
  (s.running index).map fun attempt =>
    (s.proceed provider attempt).1.setPhase index attempt (s.proceed provider attempt).2

/-- An exception or a lost connection rolls the attempt back. -/
def crash (s : PlanRun) (index : Nat) : Option PlanRun :=
  (s.running index).map fun attempt => s.setPhase index attempt (.ended (.failed .raised))

def step (s : PlanRun) : PlanAction → Option PlanRun
  | .createPatch baseVersion operations reason impact =>
      if (latestVersion s.versions).map PlanVersion.version = some baseVersion then
        some (s.addPatch baseVersion operations reason impact)
      else none
  | .replan trip solver maxReplansPerTrip provider request =>
      match createPendingReplan solver maxReplansPerTrip provider s.versions s.patches trip
          request with
      | .ok result => some (s.recordReplan trip request.reason result)
      | .error _ => none
  | .review patchId tripId review requiresConfirmation optIn =>
      some (s.recordReview patchId tripId review requiresConfirmation optIn)
  | .startTrip optIn => (latestVersion s.versions).map fun row =>
      { s with trips := s.trips ++
          [{ id := s.trips.length, state := .planReady, currentPlanVersion := row.version
             autoApplyLowRiskPatches := optIn }] }
  | .begin kind patchId => some (s.beginAttempt kind patchId)
  | .advance index provider => s.advance index provider
  | .crash index => s.crash index

end PlanRun

/-- A run starts with version 1 and nothing else. -/
def planRunMachine : Machine PlanRun PlanAction where
  initial s := ∃ snapshot reason, s = { versions := [⟨1, snapshot, reason⟩] }
  step := PlanRun.step

/-- What never changes of a stored patch and what a review reads of its impact. -/
def PlanPatch.content (patch : PlanPatch) :
    Nat × Nat × List Operation × Option ImpactBefore × Option ImpactAfter :=
  (patch.id, patch.baseVersion, patch.operations, patch.impact.before, patch.impact.after)

namespace PlanRun

def contents (s : PlanRun) :
    List (Nat × Nat × List Operation × Option ImpactBefore × Option ImpactAfter) :=
  s.patches.map PlanPatch.content

/-- The identity and base version of every patch. -/
def bases (s : PlanRun) : List (Nat × Nat) :=
  s.patches.map fun patch => (patch.id, patch.baseVersion)

theorem bases_eq (s : PlanRun) : s.bases = s.contents.map fun content => (content.1, content.2.1) := by
  rw [bases, contents, List.map_map]
  rfl

/-- The version every trip follows. -/
def followed (s : PlanRun) : List (Nat × Nat) :=
  s.trips.map fun trip => (trip.id, trip.currentPlanVersion)

end PlanRun

/-- What an attempt has read is a patch of the run, and its base exists. -/
def Phase.Grounded (s : PlanRun) : Phase → Prop
  | .begun => True
  | .rejecting patch | .loaded patch | .blocking patch =>
      (patch.id, patch.baseVersion) ∈ s.bases
  | .checked patch base =>
      (patch.id, patch.baseVersion) ∈ s.bases ∧ base ∈ s.versions ∧
        base.version = patch.baseVersion
  | .validated patch current _ | .ready patch current _ _ =>
      (patch.id, patch.baseVersion) ∈ s.bases ∧
        current ∈ s.versions.map PlanVersion.version ∧ current = patch.baseVersion
  | .ended _ => True

/-- Steps of one attempt, by what they do to the run. -/
inductive PlanRun.Progress (s : PlanRun) (attempt : Attempt) : PlanRun → Phase → Prop
  | quiet (phase : Phase) (grounded : attempt.phase.Grounded s → phase.Grounded s)
      (unaccepted : ∀ version, phase ≠ .ended (.accepted version)) : Progress s attempt s phase
  | decide (patch : PlanPatch) (status : PatchStatus) (outcome : Outcome)
      (unaccepted : status ≠ .accepted) (refused : ∀ version, outcome ≠ .accepted version) :
      Progress s attempt (s.setStatus patch.id status) (.ended outcome)
  | commit (patch : PlanPatch) (current : Nat) (snapshot : Snapshot) (selected : List TripSession)
      (read : attempt.phase = .ready patch current snapshot selected)
      (free : current + 1 ∉ s.versions.map PlanVersion.version) :
      Progress s attempt (s.commit patch (current + 1) snapshot selected)
        (.ended (.accepted (current + 1)))

theorem latestVersion_mem {versions : List PlanVersion} {row : PlanVersion}
    (latest : latestVersion versions = some row) : row ∈ versions := by
  have all (rows : List PlanVersion) (kept : Option PlanVersion)
      (folded : rows.foldl (fun latest row => match latest with
        | none => some row
        | some kept => if kept.version < row.version then some row else some kept) kept = some row) :
      row ∈ rows ∨ kept = some row := by
    induction rows generalizing kept with
    | nil => exact .inr folded
    | cons first rest ih =>
        rw [List.foldl_cons] at folded
        obtain later | now := ih _ folded
        · exact .inl (List.mem_cons_of_mem _ later)
        · split at now
          · exact .inl (Option.some.inj now ▸ List.mem_cons_self)
          · split at now
            · exact .inl (Option.some.inj now ▸ List.mem_cons_self)
            · exact .inr now
  obtain inside | contra := all versions none latest
  · exact inside
  · contradiction

namespace PlanRun

variable {s t u : PlanRun} {provider : MapProvider} {attempt : Attempt} {index : Nat}

theorem proceed_progress (active : ∀ outcome, attempt.phase ≠ .ended outcome) :
    s.Progress attempt (s.proceed provider attempt).1 (s.proceed provider attempt).2 := by
  obtain ⟨kind, patchId, phase⟩ := attempt
  cases phase with
  | begun =>
      simp only [proceed]
      split
      · exact .quiet _ (fun _ => trivial) (by simp)
      · rename_i patch found
        have member : (patch.id, patch.baseVersion) ∈ s.bases :=
          List.mem_map.mpr ⟨patch, List.mem_of_find?_eq_some found, rfl⟩
        split
        · exact .quiet _ (fun _ => trivial) (by simp)
        · split
          · exact .quiet _ (fun _ => member) (by simp)
          · exact .quiet _ (fun _ => member) (by simp)
  | rejecting patch => exact .decide patch .rejected .rejected (by simp) (by simp)
  | loaded patch =>
      simp only [proceed]
      split
      · rename_i row latest
        split
        · rename_i same
          exact .quiet _ (fun grounded => ⟨grounded, latestVersion_mem latest, same⟩) (by simp)
        · exact .quiet _ (fun _ => trivial) (by simp)
      · exact .quiet _ (fun _ => trivial) (by simp)
  | checked patch base =>
      simp only [proceed]
      split
      · exact .quiet _ (fun _ => trivial) (by simp)
      · split
        · refine .quiet _ ?_ (by simp)
          rintro ⟨member, present, same⟩
          exact ⟨member, List.mem_map_of_mem present, same⟩
        · exact .quiet _ (fun grounded => grounded.1) (by simp)
  | blocking patch => exact .decide patch .blocked _ (by simp) (by simp)
  | validated patch current snapshot =>
      exact .quiet _ (fun grounded => grounded) (by simp [proceed])
  | ready patch current snapshot selected =>
      simp only [proceed]
      split
      · exact .quiet _ (fun _ => trivial) (by simp)
      · rename_i taken
        exact .commit patch current snapshot selected rfl (by simpa using taken)
  | ended outcome => exact absurd rfl (active outcome)

theorem running_some (found : s.running index = some attempt) :
    s.attempts[index]? = some attempt ∧ ∀ outcome, attempt.phase ≠ .ended outcome := by
  obtain ⟨present, active⟩ := Option.filter_eq_some_iff.mp found
  refine ⟨present, fun outcome ended => ?_⟩
  rw [ended] at active
  contradiction

/-! ### Steps that commit nothing -/

/-- Patch ids are distinct and below the next one. -/
def Numbered (s : PlanRun) : Prop :=
  (s.bases.map Prod.fst).Nodup ∧ ∀ base ∈ s.bases, base.1 < s.nextPatchId

/-- The versions, their history and what the trips follow stay; patches may be added. -/
structure Calm (s t : PlanRun) : Prop where
  versions : t.versions = s.versions
  commits : t.commits = s.commits
  contents : s.contents <+: t.contents
  numbered : s.Numbered → t.Numbered
  accepted : ∀ patch ∈ t.patches, patch.status = .accepted →
    ∃ old ∈ s.patches, old.status = .accepted ∧ old.id = patch.id ∧
      old.baseVersion = patch.baseVersion
  followed : s.followed <+: t.followed

theorem Calm.refl (s : PlanRun) : s.Calm s :=
  ⟨rfl, rfl, List.prefix_rfl, id, fun patch member was => ⟨patch, member, was, rfl, rfl⟩,
    List.prefix_rfl⟩

theorem Calm.trans (first : s.Calm t) (second : t.Calm u) : s.Calm u where
  versions := second.versions.trans first.versions
  commits := second.commits.trans first.commits
  contents := first.contents.trans second.contents
  numbered := fun numbered => second.numbered (first.numbered numbered)
  accepted := by
    intro patch member was
    obtain ⟨middle, inside, was', id, base⟩ := second.accepted patch member was
    obtain ⟨old, before, was'', id', base'⟩ := first.accepted middle inside was'
    exact ⟨old, before, was'', id'.trans id, base'.trans base⟩
  followed := first.followed.trans second.followed

theorem Calm.bases (calm : s.Calm t) : s.bases <+: t.bases := by
  rw [bases_eq, bases_eq]
  exact calm.contents.map _

/-- An update of one patch that keeps its content. -/
theorem mapPatch_contents {id : Nat} {f : PlanPatch → PlanPatch}
    (keeps : ∀ patch, (f patch).content = patch.content) :
    (s.mapPatch id f).contents = s.contents := by
  simp only [contents, mapPatch, List.map_map]
  refine List.map_congr_left fun patch _ => ?_
  simp only [Function.comp]
  split <;> simp [keeps]

theorem mapPatch_bases {id : Nat} {f : PlanPatch → PlanPatch}
    (keeps : ∀ patch, (f patch).content = patch.content) :
    (s.mapPatch id f).bases = s.bases := by
  rw [bases_eq, bases_eq, mapPatch_contents keeps]

theorem mapPatch_calm {id : Nat} {f : PlanPatch → PlanPatch}
    (keeps : ∀ patch, (f patch).content = patch.content)
    (status : ∀ patch, (f patch).status = .accepted → patch.status = .accepted) :
    s.Calm (s.mapPatch id f) where
  versions := rfl
  commits := rfl
  contents := by rw [mapPatch_contents keeps]
  numbered := by
    intro numbered
    rw [Numbered, mapPatch_bases keeps]
    exact numbered
  accepted := by
    intro patch member was
    obtain ⟨old, inside, rfl⟩ := List.mem_map.mp member
    split at was
    · rename_i this
      have same := keeps old
      simp only [PlanPatch.content, Prod.mk.injEq] at same
      simp only [this, ↓reduceIte]
      exact ⟨old, inside, status old was, same.1.symm, same.2.1.symm⟩
    · rename_i other
      simp only [other, ↓reduceIte]
      exact ⟨old, inside, was, rfl, rfl⟩
  followed := List.prefix_rfl

theorem setStatus_calm {id : Nat} {status : PatchStatus} (unaccepted : status ≠ .accepted) :
    s.Calm (s.setStatus id status) :=
  mapPatch_calm (fun _ => rfl) fun _ was => absurd was unaccepted

theorem mapTrip_followed {id : Nat} {f : TripSession → TripSession}
    (keeps : ∀ trip, (f trip).id = trip.id ∧
      (f trip).currentPlanVersion = trip.currentPlanVersion) :
    (s.mapTrip id f).followed = s.followed := by
  simp only [followed, mapTrip, List.map_map]
  refine List.map_congr_left fun trip _ => ?_
  simp only [Function.comp]
  split <;> simp [keeps]

theorem mapTrip_calm {id : Nat} {f : TripSession → TripSession}
    (keeps : ∀ trip, (f trip).id = trip.id ∧
      (f trip).currentPlanVersion = trip.currentPlanVersion) : s.Calm (s.mapTrip id f) where
  versions := rfl
  commits := rfl
  contents := List.prefix_rfl
  numbered := fun numbered => numbered
  accepted := fun patch member was => ⟨patch, member, was, rfl, rfl⟩
  followed := by rw [mapTrip_followed keeps]

theorem addPatch_calm {base : Nat} {operations : List Operation} {reason : String}
    {impact : Impact} : s.Calm (s.addPatch base operations reason impact) where
  versions := rfl
  commits := rfl
  contents := by
    rw [contents, contents, addPatch, List.map_append]
    exact List.prefix_append _ _
  numbered := by
    rintro ⟨distinct, below⟩
    have grown : (s.addPatch base operations reason impact).bases =
        s.bases ++ [(s.nextPatchId, base)] := by
      simp [bases, addPatch]
    constructor
    · rw [grown, List.map_append]
      refine List.nodup_append.mpr ⟨distinct, List.nodup_singleton _, ?_⟩
      intro id old id' new same
      obtain ⟨entry, inside, rfl⟩ := List.mem_map.mp old
      obtain rfl := List.mem_singleton.mp new
      exact Nat.ne_of_lt (below entry inside) same
    · rw [grown]
      intro entry inside
      obtain old | new := List.mem_append.mp inside
      · exact Nat.lt_succ_of_lt (below entry old)
      · rw [List.mem_singleton.mp new]
        exact Nat.lt_succ_self _
  accepted := by
    intro patch member was
    obtain old | new := List.mem_append.mp member
    · exact ⟨patch, old, was, rfl, rfl⟩
    · rw [List.mem_singleton.mp new] at was
      contradiction
  followed := List.prefix_rfl

theorem recordReplan_calm {trip : TripSession} {reason : String} {result : Replanned} :
    s.Calm (s.recordReplan trip reason result) := by
  cases result with
  | created operations impact alternatives =>
      exact addPatch_calm.trans (mapTrip_calm fun _ => ⟨rfl, rfl⟩)
  | noFeasibleReplan => exact mapTrip_calm fun _ => ⟨rfl, rfl⟩
  | stillFeasible => exact mapTrip_calm fun _ => ⟨rfl, rfl⟩
  | budgetExceeded => exact .refl s
  | deduplicated => exact .refl s

theorem recordReplan_followed {trip : TripSession} {reason : String} {result : Replanned} :
    (s.recordReplan trip reason result).followed = s.followed := by
  cases result with
  | created operations impact alternatives => exact mapTrip_followed fun _ => ⟨rfl, rfl⟩
  | noFeasibleReplan => exact mapTrip_followed fun _ => ⟨rfl, rfl⟩
  | stillFeasible => exact mapTrip_followed fun _ => ⟨rfl, rfl⟩
  | budgetExceeded => rfl
  | deduplicated => rfl

theorem recordReview_followed {patchId tripId : Nat} {review : DynamicPatchReview}
    {requiresConfirmation optIn : Bool} :
    (s.recordReview patchId tripId review requiresConfirmation optIn).followed = s.followed := by
  simp only [recordReview]
  split
  · exact mapTrip_followed fun _ => ⟨rfl, rfl⟩
  · rfl

theorem recordReview_calm {patchId tripId : Nat} {review : DynamicPatchReview}
    {requiresConfirmation optIn : Bool} :
    s.Calm (s.recordReview patchId tripId review requiresConfirmation optIn) := by
  have written : s.Calm (s.mapPatch patchId fun patch => { patch with
      impact := { patch.impact with
        criticReview := some review
        requiresConfirmation := some requiresConfirmation
        autoApplyOptIn := some optIn } }) :=
    mapPatch_calm (fun _ => rfl) fun _ was => was
  simp only [recordReview]
  split
  · exact written.trans ((setStatus_calm (by simp)).trans (mapTrip_calm fun _ => ⟨rfl, rfl⟩))
  · exact written

/-! ### One step -/

/-- A step leaves the attempts alone, starts one, or takes one further. -/
inductive Moves (s : PlanRun) : PlanAction → PlanRun → Prop
  | calm (action : PlanAction) (t : PlanRun) (others : ∀ index provider, action ≠ .advance index provider)
      (calm : s.Calm t) (attempts : t.attempts = s.attempts ∨
        ∃ kind patchId, t.attempts = s.attempts ++ [⟨kind, patchId, .begun⟩]) : Moves s action t
  | attempt (action : PlanAction) (index : Nat) (attempt : Attempt) (after : PlanRun) (phase : Phase)
      (running : s.running index = some attempt) (progress : s.Progress attempt after phase) :
      Moves s action (after.setPhase index attempt phase)

theorem recordReplan_attempts {trip : TripSession} {reason : String} {result : Replanned} :
    (s.recordReplan trip reason result).attempts = s.attempts := by
  cases result <;> rfl

theorem recordReview_attempts {patchId tripId : Nat} {review : DynamicPatchReview}
    {requiresConfirmation optIn : Bool} :
    (s.recordReview patchId tripId review requiresConfirmation optIn).attempts = s.attempts := by
  simp only [recordReview]
  split <;> rfl

theorem step_moves {action : PlanAction} (stepped : s.step action = some t) :
    s.Moves action t := by
  cases action with
  | createPatch baseVersion operations reason impact =>
      simp only [step] at stepped
      split at stepped
      · cases stepped
        exact .calm _ _ (by simp) addPatch_calm (.inl rfl)
      · contradiction
  | replan trip solver maxReplansPerTrip provider request =>
      simp only [step] at stepped
      split at stepped
      · cases stepped
        exact .calm _ _ (by simp) recordReplan_calm (.inl recordReplan_attempts)
      · contradiction
  | review patchId tripId review requiresConfirmation optIn =>
      cases stepped
      exact .calm _ _ (by simp) recordReview_calm (.inl recordReview_attempts)
  | startTrip optIn =>
      obtain ⟨row, -, rfl⟩ := Option.map_eq_some_iff.mp stepped
      refine .calm _ _ (by simp) ?_ (.inl rfl)
      refine ⟨rfl, rfl, List.prefix_rfl, id, fun patch member was => ⟨patch, member, was, rfl, rfl⟩,
        ?_⟩
      rw [followed, followed, List.map_append]
      exact List.prefix_append _ _
  | begin kind patchId =>
      cases stepped
      exact .calm _ _ (by simp) ⟨rfl, rfl, List.prefix_rfl, id,
        fun patch member was => ⟨patch, member, was, rfl, rfl⟩, List.prefix_rfl⟩
        (.inr ⟨kind, patchId, rfl⟩)
  | advance index provider =>
      obtain ⟨attempt, running, rfl⟩ := Option.map_eq_some_iff.mp stepped
      exact .attempt _ index attempt _ _ running (proceed_progress (running_some running).2)
  | crash index =>
      obtain ⟨attempt, running, rfl⟩ := Option.map_eq_some_iff.mp stepped
      exact .attempt _ index attempt s _ running (.quiet _ (fun _ => trivial) (by simp))

theorem commit_contents {patch : PlanPatch} {version : Nat} {snapshot : Snapshot}
    {selected : List TripSession} :
    (s.commit patch version snapshot selected).contents = s.contents :=
  mapPatch_contents (s := s) fun _ => rfl

theorem commit_bases {patch : PlanPatch} {version : Nat} {snapshot : Snapshot}
    {selected : List TripSession} : (s.commit patch version snapshot selected).bases = s.bases := by
  rw [bases_eq, bases_eq, commit_contents]

/-- Stored patches keep their content. -/
theorem step_contents {action : PlanAction} (stepped : s.step action = some t) :
    s.contents <+: t.contents := by
  cases step_moves stepped with
  | calm _ others calm attempts => exact calm.contents
  | attempt index attempt after phase running progress =>
      cases progress with
      | quiet => exact List.prefix_rfl
      | decide patch status outcome unaccepted => exact (setStatus_calm unaccepted).contents
      | commit patch current snapshot selected =>
          change s.contents <+: (s.commit patch (current + 1) snapshot selected).contents
          rw [commit_contents]

end PlanRun

theorem Phase.Grounded.mono {s t : PlanRun} {phase : Phase} (grounded : phase.Grounded s)
    (bases : s.bases <+: t.bases) (versions : s.versions <+: t.versions) : phase.Grounded t := by
  cases phase with
  | begun => trivial
  | rejecting patch => exact bases.subset grounded
  | loaded patch => exact bases.subset grounded
  | blocking patch => exact bases.subset grounded
  | checked patch base => exact ⟨bases.subset grounded.1, versions.subset grounded.2.1, grounded.2.2⟩
  | validated patch current snapshot =>
      exact ⟨bases.subset grounded.1, List.map_subset _ versions.subset grounded.2.1, grounded.2.2⟩
  | ready patch current snapshot selected =>
      exact ⟨bases.subset grounded.1, List.map_subset _ versions.subset grounded.2.1, grounded.2.2⟩
  | ended outcome => trivial

/-- Versions count up from 1, each later one with the accepted patch that produced it. -/
structure PlanRun.Chained (s : PlanRun) : Prop where
  started : s.versions ≠ []
  versions : s.versions.map PlanVersion.version = List.range' 1 s.versions.length
  numbered : s.Numbered
  grounded : ∀ attempt ∈ s.attempts, attempt.phase.Grounded s
  produced : s.commits.map Prod.snd = List.range' 2 (s.versions.length - 1)
  sources : ∀ commit ∈ s.commits, ∃ base, (commit.1, base) ∈ s.bases ∧ commit.2 = base + 1
  accepted : ∀ patch ∈ s.patches, patch.status = .accepted →
    (patch.id, patch.baseVersion + 1) ∈ s.commits

namespace PlanRun.Chained

variable {s t : PlanRun} {attempt : Attempt} {index : Nat}

theorem of_calm (inv : s.Chained) (calm : s.Calm t)
    (attempts : ∀ attempt ∈ t.attempts, attempt.phase.Grounded t) : t.Chained where
  started := calm.versions ▸ inv.started
  versions := calm.versions ▸ inv.versions
  numbered := calm.numbered inv.numbered
  grounded := attempts
  produced := by rw [calm.commits, calm.versions, inv.produced]
  sources := by
    intro commit member
    obtain ⟨base, known, same⟩ := inv.sources commit (calm.commits ▸ member)
    exact ⟨base, calm.bases.subset known, same⟩
  accepted := by
    intro patch member was
    obtain ⟨old, inside, was', id, base⟩ := calm.accepted patch member was
    rw [calm.commits, ← id, ← base]
    exact inv.accepted old inside was'

/-- The version that a ready attempt read is the last one when the next is still free. -/
theorem current_eq (inv : s.Chained) {current : Nat}
    (known : current ∈ s.versions.map PlanVersion.version)
    (free : current + 1 ∉ s.versions.map PlanVersion.version) : current = s.versions.length := by
  rw [inv.versions, List.mem_range'_1] at known free
  omega

theorem of_commit (inv : s.Chained) {patch : PlanPatch} {current : Nat} {snapshot : Snapshot}
    {selected : List TripSession} (known : (patch.id, patch.baseVersion) ∈ s.bases)
    (present : current ∈ s.versions.map PlanVersion.version) (same : current = patch.baseVersion)
    (free : current + 1 ∉ s.versions.map PlanVersion.version) :
    (s.commit patch (current + 1) snapshot selected).Chained := by
  have last := inv.current_eq present free
  have some' : 0 < s.versions.length := List.length_pos_iff.mpr inv.started
  refine ⟨by simp [commit], ?_, ?_, ?_, ?_, ?_, ?_⟩
  · simp only [commit, List.map_append, List.map_cons, List.map_nil, List.length_append,
      List.length_singleton, inv.versions, List.range'_concat]
    simp [last, Nat.add_comm]
  · rw [Numbered, commit_bases]
    exact inv.numbered
  · intro attempt member
    refine (inv.grounded attempt member).mono ?_ ?_
    · rw [commit_bases]
    · exact List.prefix_append _ _
  · have grown : s.versions.length + 1 - 1 = (s.versions.length - 1) + 1 := by omega
    simp only [commit, List.map_append, List.map_cons, List.map_nil, List.length_append,
      List.length_singleton, inv.produced, grown, List.range'_concat]
    simp only [List.append_cancel_left_eq, List.cons.injEq, and_true]
    omega
  · intro entry member
    rw [commit_bases]
    obtain old | new := List.mem_append.mp member
    · exact inv.sources entry old
    · rw [List.mem_singleton.mp new]
      exact ⟨patch.baseVersion, known, by rw [same]⟩
  · intro row member was
    obtain ⟨old, inside, rfl⟩ := List.mem_map.mp member
    split at was
    · rename_i this
      have equal : (old.id, old.baseVersion) = (patch.id, patch.baseVersion) :=
        List.inj_on_of_nodup_map inv.numbered.1 (List.mem_map_of_mem inside) known this
      refine List.mem_append_right _ (List.mem_singleton.mpr ?_)
      simp only [this, ↓reduceIte, same]
      exact congrArg (fun version => (patch.id, version + 1)) (Prod.ext_iff.mp equal).2
    · rename_i other
      simp only [other, ↓reduceIte]
      exact List.mem_append_left _ (inv.accepted old inside was)

theorem setPhase (inv : s.Chained) {phase : Phase} (grounded : phase.Grounded s) :
    (s.setPhase index attempt phase).Chained := by
  refine { inv with grounded := fun other member => ?_ }
  obtain old | rfl := List.mem_or_eq_of_mem_set member
  · exact inv.grounded other old
  · exact grounded

theorem step {action : PlanAction} (inv : s.Chained) (stepped : s.step action = some t) :
    t.Chained := by
  cases step_moves stepped with
  | calm _ others calm attempts =>
      refine inv.of_calm calm fun attempt member => ?_
      have old (before : attempt ∈ s.attempts) : attempt.phase.Grounded t :=
        (inv.grounded attempt before).mono calm.bases (by rw [calm.versions])
      obtain same | ⟨kind, patchId, begun⟩ := attempts
      · exact old (same ▸ member)
      · rw [begun] at member
        obtain before | new := List.mem_append.mp member
        · exact old before
        · rw [List.mem_singleton.mp new]
          trivial
  | attempt index attempt after phase running progress =>
      have present := List.mem_of_getElem? (running_some running).1
      have grounded := inv.grounded attempt present
      cases progress with
      | quiet _ keeps unaccepted => exact inv.setPhase (keeps grounded)
      | decide patch status outcome unaccepted refused =>
          have calm : s.Calm (s.setStatus patch.id status) := setStatus_calm unaccepted
          refine Chained.setPhase (inv.of_calm calm fun other member => ?_) trivial
          exact (inv.grounded other member).mono calm.bases (by rw [calm.versions])
      | commit patch current snapshot selected read free =>
          rw [read] at grounded
          obtain ⟨known, present, same⟩ := grounded
          exact (inv.of_commit known present same free).setPhase trivial

theorem of_reachable (reached : planRunMachine.Reachable s) : s.Chained := by
  refine reached.invariant (fun s start => ?_) fun inv stepped => inv.step stepped
  obtain ⟨snapshot, reason, rfl⟩ := start
  constructor <;> simp [Numbered, bases]

end PlanRun.Chained

namespace PlanRun

variable {s t u : PlanRun} {attempt : Attempt} {index : Nat}

theorem step_versions {action : PlanAction} (stepped : s.step action = some t) :
    s.versions <+: t.versions := by
  cases step_moves stepped with
  | calm _ others calm attempts => rw [calm.versions]
  | attempt index attempt after phase running progress =>
      cases progress with
      | quiet => exact List.prefix_rfl
      | decide => exact List.prefix_rfl
      | commit => exact List.prefix_append _ _

theorem versions_of_reaches (path : planRunMachine.Reaches s t) : s.versions <+: t.versions := by
  induction path with
  | refl => exact List.prefix_rfl
  | next _ last ih => exact ih.trans (step_versions last)

/-- A returned attempt is never touched again. -/
theorem step_ended {action : PlanAction} {outcome : Outcome} (stepped : s.step action = some t)
    (present : s.attempts[index]? = some attempt) (ended : attempt.phase = .ended outcome) :
    t.attempts[index]? = some attempt := by
  cases step_moves stepped with
  | calm _ others calm attempts =>
      obtain same | ⟨kind, patchId, begun⟩ := attempts
      · rw [same, present]
      · rw [begun, List.getElem?_append_left (List.getElem?_eq_some_iff.mp present).1, present]
  | attempt index' attempt' after phase running progress =>
      obtain ⟨present', active⟩ := running_some running
      have apart : index' ≠ index := by
        rintro rfl
        obtain rfl := Option.some.inj (present.symm.trans present')
        exact active outcome ended
      have kept : after.attempts = s.attempts := by cases progress <;> rfl
      rw [setPhase, kept, List.getElem?_set_ne apart, present]

theorem ended_of_reaches {outcome : Outcome} (path : planRunMachine.Reaches s t)
    (present : s.attempts[index]? = some attempt) (ended : attempt.phase = .ended outcome) :
    t.attempts[index]? = some attempt := by
  induction path with
  | refl => exact present
  | next _ last ih => exact step_ended last ih ended

/-- An attempt that is not accepted in the end has changed no version and no trip's version. -/
theorem unaccepted_quiet {provider : MapProvider} {final : Attempt} {outcome : Outcome}
    (stepped : s.step (.advance index provider) = some t) (path : planRunMachine.Reaches t u)
    (present : u.attempts[index]? = some final) (ended : final.phase = .ended outcome)
    (refused : ∀ version, outcome ≠ .accepted version) :
    t.versions = s.versions ∧ t.followed = s.followed := by
  obtain ⟨attempt, running, rfl⟩ := Option.map_eq_some_iff.mp stepped
  obtain ⟨present', active⟩ := running_some running
  have progress : s.Progress attempt (s.proceed provider attempt).1
      (s.proceed provider attempt).2 := proceed_progress active
  generalize s.proceed provider attempt = result at progress path
  obtain ⟨after, phase⟩ := result
  cases progress with
  | quiet => exact ⟨rfl, rfl⟩
  | decide => exact ⟨rfl, rfl⟩
  | commit patch current snapshot selected read free =>
      have bound : index < s.attempts.length := (List.getElem?_eq_some_iff.mp present').1
      have closed := ended_of_reaches path (List.getElem?_set_self bound) rfl
      obtain rfl := Option.some.inj (closed.symm.trans present)
      cases ended
      exact absurd rfl (refused (current + 1))

end PlanRun

/-- In every state of a run: the versions are 1 to N, each accepted patch is the one producer of
the version after its base, versions never change, and attempts that are not accepted leave the
versions and the trips' versions alone. -/
theorem version_chain (s : PlanRun) (reached : planRunMachine.Reachable s) :
    (s.versions ≠ [] ∧ s.versions.map PlanVersion.version = List.range' 1 s.versions.length) ∧
    (∀ patch ∈ s.patches, patch.status = .accepted →
      (patch.id, patch.baseVersion + 1) ∈ s.commits ∧
        ∀ id, (id, patch.baseVersion + 1) ∈ s.commits → id = patch.id) ∧
    (s.commits.map Prod.snd = List.range' 2 (s.versions.length - 1) ∧
      ∀ commit ∈ s.commits, ∃ patch ∈ s.patches, patch.id = commit.1 ∧
        commit.2 = patch.baseVersion + 1) ∧
    (∀ t, planRunMachine.Reaches s t → s.versions <+: t.versions) ∧
    ∀ index provider t u final outcome, planRunMachine.step s (.advance index provider) = some t →
      planRunMachine.Reaches t u → u.attempts[index]? = some final →
      final.phase = .ended outcome → (∀ version, outcome ≠ .accepted version) →
      t.versions = s.versions ∧ t.followed = s.followed := by
  have inv := PlanRun.Chained.of_reachable reached
  refine ⟨⟨inv.started, inv.versions⟩, fun patch member was => ?_, ⟨inv.produced, ?_⟩,
    fun t path => PlanRun.versions_of_reaches path, ?_⟩
  · have made := inv.accepted patch member was
    refine ⟨made, fun id other => ?_⟩
    have distinct : (s.commits.map Prod.snd).Nodup := inv.produced ▸ List.nodup_range'
    have same := List.inj_on_of_nodup_map distinct other made rfl
    exact (Prod.mk.inj same).1
  · intro commit member
    obtain ⟨base, known, same⟩ := inv.sources commit member
    obtain ⟨patch, inside, equal⟩ := List.mem_map.mp known
    obtain ⟨id, base'⟩ := Prod.mk.inj equal
    exact ⟨patch, inside, id, by rw [same, base']⟩
  · intro index provider t u final outcome stepped path present ended refused
    exact PlanRun.unaccepted_quiet stepped path present ended refused

/-! Two patches on version 1: the user accepts the first while the worker applies the second. -/

def museumStop (taskIndex : Int) (id : String) : Stop where
  taskIndex := taskIndex
  task := { description := "参观" }
  poi := { id := id, location := ⟨0, 0⟩ }

def museumPlan : Snapshot where
  origin := some ⟨0, 0⟩
  departureTime := some ⟨0, 0⟩
  intent := { tasks := [{ description := "参观" }, { description := "参观" }] }
  stops := [museumStop 0 "A", museumStop 1 "B"]

/-- Every pair of points is a minute apart. -/
def evenProvider : MapProvider where
  searchPoi _ _ _ := some []
  routeMatrix points _ :=
    some ⟨List.replicate points.length (List.replicate points.length ⟨60, 60, 1⟩)⟩

def museumRun : PlanRun := { versions := [⟨1, museumPlan, "initial_plan"⟩] }

def racedScript : List PlanAction :=
  [.createPatch 1 [.moveStop (some 0) (some 1)] "换序" {},
    .createPatch 1 [.moveStop (some 1) (some 0)] "换序" {}, .startTrip false,
    .begin .accept 1, .begin .automatic 2] ++
  (List.replicate 5 [.advance 0 evenProvider, .advance 1 evenProvider]).flatten

theorem version_chain_raced : ∃ s, planRunMachine.Reachable s ∧ s.commits = [(1, 2)] ∧
    s.followed = [(0, 2)] ∧ s.versions.map PlanVersion.version = List.range' 1 s.versions.length := by
  have raced : (planRunMachine.run museumRun racedScript).map (fun s => (s.commits, s.followed)) =
      some ([(1, 2)], [(0, 2)]) := by decide
  obtain ⟨s, ran, same⟩ := Option.map_eq_some_iff.mp raced
  have reached : planRunMachine.Reachable s :=
    Machine.reachable_of_run racedScript ⟨museumPlan, "initial_plan", rfl⟩ ran
  obtain ⟨commits, followed⟩ := Prod.mk.inj same
  exact ⟨s, reached, commits, followed, (version_chain s reached).1.2⟩

end MapGo.Patch
