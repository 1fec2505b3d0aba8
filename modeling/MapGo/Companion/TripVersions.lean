import MapGo.Patch.Versioning
import MapGo.Companion.TripEvents

/-! Trips of one planning run that are created while patches are accepted. A creation reads the
latest version and inserts its trip later; an acceptance moves the trips that it has selected
before its commit. -/
namespace MapGo.Companion

open Transition MapGo.Patch MapGo.Route

/-- What `create_trip_session` has read so far. -/
inductive Creation where
  | loaded (version : Nat) (autoApplyLowRiskPatches : Bool)
  | unopposed (version : Nat) (autoApplyLowRiskPatches : Bool)
  | ended
  deriving DecidableEq

structure TripVersions where
  plan : PlanRun
  creations : List Creation := []

/-- Creations that stop at another check write nothing and are left out. -/
inductive VersionAction where
  | plan (action : PlanAction)
  | state (tripId : Nat) (state : TripState)
  | load (autoApplyLowRiskPatches : Bool)
  | findExisting (index : Nat)
  | insert (index : Nat)
  | crash (index : Nat)

/-- Creations are steps of their own here. -/
def startsTrip : PlanAction → Bool
  | .startTrip _ => true
  | _ => false

def latest (plan : PlanRun) : Option Nat := (latestVersion plan.versions).map PlanVersion.version

def addTrip (plan : PlanRun) (version : Nat) (autoApplyLowRiskPatches : Bool) : PlanRun :=
  { plan with trips := plan.trips ++
      [{ id := plan.trips.length, state := .planReady, currentPlanVersion := version
         autoApplyLowRiskPatches := autoApplyLowRiskPatches }] }

namespace TripVersions

def setCreation (s : TripVersions) (index : Nat) (creation : Creation) : TripVersions :=
  { s with creations := s.creations.set index creation }

/-- No creation and no decision is in progress. -/
def idle (s : TripVersions) : Bool :=
  (List.range s.plan.attempts.length).all (fun index => (s.plan.running index).isNone) &&
    s.creations.all fun creation => creation = .ended

/-- Without an operation in progress, the trips that are not over follow the latest version. -/
def Agree (s : TripVersions) : Prop :=
  s.idle = true → ∀ trip ∈ s.plan.trips, ended trip.state = false →
    latest s.plan = some trip.currentPlanVersion

/-- Every trip follows the latest version. -/
def Aligned (s : TripVersions) : Prop :=
  ∀ trip ∈ s.plan.trips, latest s.plan = some trip.currentPlanVersion

end TripVersions

def versionMachine : Machine TripVersions VersionAction where
  initial s := planRunMachine.initial s.plan ∧ s.creations = []
  step s
    | .plan action =>
        if startsTrip action then none
        else (s.plan.step action).map fun plan => { s with plan := plan }
    | .state tripId state =>
        some { s with plan := s.plan.mapTrip tripId fun trip => { trip with state := state } }
    | .load optIn => (latest s.plan).map fun version =>
        { s with creations := s.creations ++ [.loaded version optIn] }
    | .findExisting index => (s.creations[index]?).bind fun
        | .loaded version optIn =>
            if s.plan.trips.any fun trip => !ended trip.state then some (s.setCreation index .ended)
            else some (s.setCreation index (.unopposed version optIn))
        | _ => none
    | .insert index => (s.creations[index]?).bind fun
        | .unopposed version optIn =>
            some ({ s with plan := addTrip s.plan version optIn }.setCreation index .ended)
        | _ => none
    | .crash index =>
        if index < s.creations.length then some (s.setCreation index .ended) else none

namespace TripVersions

/-- A trip is inserted on the version that is still the latest, and a commit has selected every trip
of its base version. -/
def undisturbed (s : TripVersions) : VersionAction → Bool
  | .insert index => (s.creations[index]?).all fun
      | .unopposed version _ => latest s.plan = some version
      | _ => true
  | .plan (.advance index _) => (s.plan.running index).all fun attempt => match attempt.phase with
      | .ready _ current _ selected =>
          s.plan.versions.any (·.version = current + 1) ||
            s.plan.trips.all fun trip => trip.currentPlanVersion ≠ current ||
              selected.any (·.id = trip.id)
      | _ => true
  | _ => true

end TripVersions

/-! ### The latest version -/

theorem latestVersion_append (rows : List PlanVersion) (row : PlanVersion)
    (greater : ∀ old ∈ rows, old.version < row.version) :
    latestVersion (rows ++ [row]) = some row := by
  rw [latestVersion, List.foldl_append]
  change List.foldl _ (latestVersion rows) [row] = some row
  cases found : latestVersion rows with
  | none => rfl
  | some kept =>
      have above := greater kept (latestVersion_mem found)
      simp [above]

theorem latest_eq {plan : PlanRun} (chained : plan.Chained) :
    latest plan = some plan.versions.length := by
  obtain ⟨rows, row, split⟩ :=
    (List.eq_nil_or_concat' plan.versions).resolve_left chained.started
  have numbers := chained.versions
  rw [split, List.map_append, List.map_singleton, List.length_append, List.length_singleton,
    List.range'_concat] at numbers
  obtain ⟨before, last⟩ := List.append_inj' numbers rfl
  have version : row.version = rows.length + 1 := by
    have same := List.singleton_inj.mp last
    omega
  have greater (old : PlanVersion) (member : old ∈ rows) : old.version < row.version := by
    have inside : old.version ∈ rows.map PlanVersion.version := List.mem_map_of_mem member
    rw [before, List.mem_range'_1] at inside
    omega
  rw [latest, split, latestVersion_append rows row greater, Option.map_some, version,
    List.length_append, List.length_singleton]

namespace TripVersions

variable {s t : TripVersions}

/-! ### What the steps do to the trips -/

theorem aligned_iff : s.Aligned ↔ ∀ entry ∈ s.plan.followed, latest s.plan = some entry.2 := by
  simp [Aligned, PlanRun.followed]

theorem aligned_of_followed (versions : t.plan.versions = s.plan.versions)
    (followed : t.plan.followed = s.plan.followed) : t.Aligned ↔ s.Aligned := by
  rw [aligned_iff, aligned_iff, latest, latest, versions, followed]

/-- The trips after a commit: those that were selected follow the new version. -/
theorem commit_followed (plan : PlanRun) (patch : PlanPatch) (version : Nat) (snapshot : Snapshot)
    (selected : List TripSession) :
    (plan.commit patch version snapshot selected).followed = plan.trips.map fun trip =>
      (trip.id, if selected.any (·.id = trip.id) then version else trip.currentPlanVersion) := by
  rw [PlanRun.followed, PlanRun.commit, List.map_map]
  refine List.map_congr_left fun trip _ => ?_
  cases found : selected.find? (·.id = trip.id) with
  | none =>
      have absent : selected.any (·.id = trip.id) = false := by
        simpa using List.find?_eq_none.mp found
      simp [found, absent]
  | some chosen =>
      have same := List.find?_some found
      have present : selected.any (·.id = trip.id) = true :=
        List.any_eq_true.mpr ⟨chosen, List.mem_of_find?_eq_some found, same⟩
      simp [found, present]

theorem insert_aligned (aligned : s.Aligned) {version : Nat} {optIn : Bool}
    (added : t.plan = addTrip s.plan version optIn) :
    t.Aligned ↔ latest s.plan = some version := by
  rw [Aligned, added]
  constructor
  · intro all
    exact all _ (List.mem_append_right _ (List.mem_singleton_self _))
  · intro same trip member
    rcases List.mem_append.mp member with before | last
    · exact aligned trip before
    · rw [List.mem_singleton.mp last]
      exact same

theorem commit_aligned (chained : s.plan.Chained) (aligned : s.Aligned) {current : Nat}
    {selected : List TripSession} (last : current = s.plan.versions.length) (chained' : t.plan.Chained)
    (versions : t.plan.versions.length = s.plan.versions.length + 1)
    (followed : t.plan.followed = s.plan.trips.map fun trip =>
      (trip.id, if selected.any (·.id = trip.id) then current + 1 else trip.currentPlanVersion)) :
    t.Aligned ↔ ∀ trip ∈ s.plan.trips, trip.currentPlanVersion = current →
      selected.any (·.id = trip.id) = true := by
  rw [aligned_iff, latest_eq chained', versions, followed, List.forall_mem_map]
  refine forall₂_congr fun trip member => ?_
  have follows : s.plan.versions.length = trip.currentPlanVersion :=
    Option.some.inj ((latest_eq chained).symm.trans (aligned trip member))
  by_cases chosen : selected.any (·.id = trip.id) = true
  · simp [chosen, last]
  · have other : s.plan.versions.length + 1 ≠ trip.currentPlanVersion := by omega
    simp [chosen, last, follows]

/-- Only an attempt that has selected its trips commits. -/
theorem progress_still {plan after : PlanRun} {attempt : Attempt} {phase : Phase}
    (progress : plan.Progress attempt after phase)
    (early : ∀ patch current snapshot selected,
      attempt.phase ≠ .ready patch current snapshot selected) :
    after.versions = plan.versions ∧ after.followed = plan.followed := by
  cases progress with
  | quiet => exact ⟨rfl, rfl⟩
  | decide => exact ⟨rfl, rfl⟩
  | commit patch current snapshot selected read => exact absurd read (early _ _ _ _)

theorem advance_aligned (chained : s.plan.Chained) (aligned : s.Aligned) {index : Nat}
    {provider : MapProvider} {plan : PlanRun}
    (stepped : s.plan.step (.advance index provider) = some plan) :
    TripVersions.Aligned { s with plan := plan } ↔
      s.undisturbed (.plan (.advance index provider)) = true := by
  have chained' := chained.step stepped
  obtain ⟨attempt, running, rfl⟩ := Option.map_eq_some_iff.mp stepped
  obtain ⟨present, active⟩ := PlanRun.running_some running
  simp only [undisturbed, running, Option.all_some]
  have quiet {after : PlanRun} {phase : Phase} (versions : after.versions = s.plan.versions)
      (followed : after.followed = s.plan.followed) :
      TripVersions.Aligned { s with plan := after.setPhase index attempt phase } :=
    (aligned_of_followed (s := s) versions followed).mpr aligned
  obtain ⟨kind, patchId, phase⟩ := attempt
  cases phase with
  | ready patch current snapshot selected =>
      simp only [PlanRun.proceed] at chained' ⊢
      split at chained'
      · rename_i taken
        rw [if_pos taken]
        refine iff_of_true (quiet rfl rfl) ?_
        rw [taken, Bool.true_or]
      · rename_i free
        rw [if_neg free]
        have grounded := chained.grounded _ (List.mem_of_getElem? present)
        have last := chained.current_eq grounded.2.1 (by simpa using free)
        have grown : (s.plan.commit patch (current + 1) snapshot selected).versions.length =
            s.plan.versions.length + 1 := List.length_append
        have followed := commit_followed s.plan patch (current + 1) snapshot selected
        rw [commit_aligned chained aligned last chained' grown followed, eq_false_of_ne_true free,
          Bool.false_or, List.all_eq_true]
        refine forall₂_congr fun trip _ => ?_
        by_cases follows : trip.currentPlanVersion = current <;> simp [follows]
  | ended outcome => exact absurd rfl (active outcome)
  | _ =>
      refine iff_of_true ?_ rfl
      have progress : s.plan.Progress _ (s.plan.proceed provider _).1 (s.plan.proceed provider _).2 :=
        PlanRun.proceed_progress active
      obtain ⟨versions, followed⟩ := progress_still progress (by simp)
      exact quiet versions followed

theorem chained_of_calm {plan after : PlanRun} (chained : plan.Chained) (calm : plan.Calm after)
    (attempts : after.attempts = plan.attempts) : after.Chained := by
  refine chained.of_calm calm fun attempt member => ?_
  rw [attempts] at member
  exact (chained.grounded attempt member).mono calm.bases (by rw [calm.versions])

theorem addTrip_calm (plan : PlanRun) (version : Nat) (optIn : Bool) :
    plan.Calm (addTrip plan version optIn) where
  versions := rfl
  commits := rfl
  contents := List.prefix_rfl
  numbered := id
  accepted patch member was := ⟨patch, member, was, rfl, rfl⟩
  followed := by
    rw [PlanRun.followed, PlanRun.followed, addTrip, List.map_append]
    exact List.prefix_append _ _

theorem plan_aligned (chained : s.plan.Chained) (aligned : s.Aligned) {action : PlanAction}
    {plan : PlanRun} (creates : startsTrip action = false)
    (stepped : s.plan.step action = some plan) :
    TripVersions.Aligned { s with plan := plan } ↔ s.undisturbed (.plan action) = true := by
  have quiet (versions : plan.versions = s.plan.versions)
      (followed : plan.followed = s.plan.followed) : TripVersions.Aligned { s with plan := plan } :=
    (aligned_of_followed (s := s) versions followed).mpr aligned
  cases action with
  | advance index provider => exact advance_aligned chained aligned stepped
  | startTrip optIn => contradiction
  | createPatch base operations reason impact =>
      simp only [PlanRun.step] at stepped
      split at stepped
      · cases stepped
        exact iff_of_true (quiet rfl rfl) rfl
      · contradiction
  | replan trip solver maxReplansPerTrip provider request =>
      simp only [PlanRun.step] at stepped
      split at stepped
      · cases stepped
        exact iff_of_true (quiet PlanRun.recordReplan_calm.versions PlanRun.recordReplan_followed) rfl
      · contradiction
  | review patchId tripId review requiresConfirmation optIn =>
      cases stepped
      exact iff_of_true (quiet PlanRun.recordReview_calm.versions PlanRun.recordReview_followed) rfl
  | begin kind patchId =>
      cases stepped
      exact iff_of_true (quiet rfl rfl) rfl
  | crash index =>
      obtain ⟨attempt, -, rfl⟩ := Option.map_eq_some_iff.mp stepped
      exact iff_of_true (quiet rfl rfl) rfl

theorem step_aligned (chained : s.plan.Chained) (aligned : s.Aligned) {action : VersionAction}
    (stepped : versionMachine.step s action = some t) :
    t.plan.Chained ∧ (t.Aligned ↔ s.undisturbed action = true) := by
  cases action with
  | plan action =>
      simp only [versionMachine] at stepped
      split at stepped
      · contradiction
      · rename_i creates
        obtain ⟨plan, moved, rfl⟩ := Option.map_eq_some_iff.mp stepped
        exact ⟨chained.step moved, plan_aligned chained aligned (eq_false_of_ne_true creates) moved⟩
  | state tripId state =>
      cases stepped
      let changed := s.plan.mapTrip tripId fun trip => { trip with state := state }
      have calm : s.plan.Calm changed := PlanRun.mapTrip_calm fun _ => ⟨rfl, rfl⟩
      have followed : changed.followed = s.plan.followed :=
        PlanRun.mapTrip_followed fun _ => ⟨rfl, rfl⟩
      have kept : TripVersions.Aligned { s with plan := changed } :=
        (aligned_of_followed (s := s) (t := { s with plan := changed }) rfl followed).mpr aligned
      exact ⟨chained_of_calm chained calm rfl, iff_of_true kept rfl⟩
  | load optIn =>
      obtain ⟨version, -, rfl⟩ := Option.map_eq_some_iff.mp stepped
      exact ⟨chained, iff_of_true aligned rfl⟩
  | findExisting index =>
      obtain ⟨creation, present, stepped⟩ := Option.bind_eq_some_iff.mp stepped
      split at stepped
      · split at stepped
        all_goals
          cases stepped
          exact ⟨chained, iff_of_true aligned rfl⟩
      · contradiction
  | insert index =>
      obtain ⟨creation, present, stepped⟩ := Option.bind_eq_some_iff.mp stepped
      split at stepped
      · rename_i version optIn
        cases stepped
        refine ⟨chained_of_calm chained (addTrip_calm s.plan version optIn) rfl, ?_⟩
        rw [insert_aligned (s := s) aligned rfl]
        simp [undisturbed, present]
      · contradiction
  | crash index =>
      simp only [versionMachine] at stepped
      split at stepped
      · cases stepped
        exact ⟨chained, iff_of_true aligned rfl⟩
      · contradiction

theorem aligned_of_reachable (reached : (versionMachine.restrict fun s action =>
    s.undisturbed action = true).Reachable s) : s.plan.Chained ∧ s.Aligned := by
  refine reached.invariant (P := fun s => s.plan.Chained ∧ s.Aligned) (fun s start => ?_)
    fun inv stepped => ?_
  · obtain ⟨⟨snapshot, reason, fresh⟩, -⟩ := start
    refine ⟨PlanRun.Chained.of_reachable ⟨s.plan, ⟨snapshot, reason, fresh⟩, .refl _⟩, ?_⟩
    rw [Aligned, fresh]
    exact List.forall_mem_nil _
  · obtain ⟨undisturbed, stepped⟩ := Machine.restrict_step.mp stepped
    obtain ⟨chained, aligned⟩ := step_aligned inv.1 inv.2 stepped
    exact ⟨chained, aligned.mpr undisturbed⟩

/-- A replan bases its patch on the version of the trip that it was given. -/
theorem replan_based {plan after : PlanRun} {trip : TripSession} {solver : RoutingSolver}
    {maxReplansPerTrip : Nat} {provider : MapProvider} {request : PendingReplanRequest}
    (stepped : plan.step (.replan trip solver maxReplansPerTrip provider request) = some after) :
    latest after = latest plan ∧ ∀ patch ∈ after.patches, patch ∈ plan.patches ∨
      patch.baseVersion = trip.currentPlanVersion := by
  simp only [PlanRun.step] at stepped
  split at stepped
  · rename_i result answered
    cases stepped
    refine ⟨by rw [latest, latest, PlanRun.recordReplan_calm.versions], fun patch member => ?_⟩
    cases result with
    | created operations impact alternatives =>
        rcases List.mem_append.mp member with before | last
        · exact .inl before
        · exact .inr (by rw [List.mem_singleton.mp last])
    | _ => exact .inl member
  · contradiction

end TripVersions

/-- In every state of a run that inserts trips on the latest version and commits with all trips of
the base version selected, the trips that are not over follow the latest version, and it is the base
of the patches that are made for them. The next step keeps every trip on the latest version exactly
when it meets the condition too. -/
theorem trips_follow_latest (s : TripVersions) (reached : (versionMachine.restrict fun s action =>
    s.undisturbed action = true).Reachable s) :
    s.Agree ∧
    (∀ trip ∈ s.plan.trips, ∀ solver maxReplansPerTrip provider request plan,
      s.plan.step (.replan trip solver maxReplansPerTrip provider request) = some plan →
        ∀ patch ∈ plan.patches, patch ∈ s.plan.patches ∨ latest plan = some patch.baseVersion) ∧
    ∀ action t, versionMachine.step s action = some t →
      (t.Aligned ↔ s.undisturbed action = true) := by
  obtain ⟨chained, aligned⟩ := TripVersions.aligned_of_reachable reached
  refine ⟨fun _ trip member _ => aligned trip member, ?_, fun action t stepped => ?_⟩
  · intro trip member solver maxReplansPerTrip provider request plan stepped patch inside
    obtain ⟨same, based⟩ := TripVersions.replan_based stepped
    rcases based patch inside with before | base
    · exact .inl before
    · exact .inr (by rw [same, base, aligned trip member])
  · exact (TripVersions.step_aligned chained aligned stepped).2

/-! A creation and a user who accepts a patch on version 1. -/

def museumTrips : TripVersions := { plan := museumRun }

theorem museumTrips_initial : versionMachine.initial museumTrips :=
  ⟨⟨museumPlan, "initial_plan", rfl⟩, rfl⟩

def acceptFirst : List VersionAction :=
  [.plan (.createPatch 1 [.moveStop (some 0) (some 1)] "换序" {}), .plan (.begin .accept 1)] ++
    List.replicate 5 (.plan (.advance 0 evenProvider))

theorem trips_follow_latest_moved : ∃ s : TripVersions, s.idle = true ∧
    s.plan.followed = [(0, 2)] ∧ s.Agree := by
  have moved : ∃ s, versionMachine.run museumTrips
      ([.load false, .findExisting 0, .insert 0] ++ acceptFirst) = some s ∧ s.idle = true ∧
        s.plan.followed = [(0, 2)] := by decide +kernel
  obtain ⟨s, ran, idle, followed⟩ := moved
  have met : versionMachine.along TripVersions.undisturbed museumTrips
      ([.load false, .findExisting 0, .insert 0] ++ acceptFirst) = true := by decide +kernel
  have reached := Machine.reachable_restrict_of_run _ museumTrips_initial ran
    (Machine.meetsAlong_of_along met)
  exact ⟨s, idle, followed, (trips_follow_latest s reached).1⟩

/-- The trip is inserted on version 1 after version 2 was committed. -/
theorem created_trip_stale : ∃ s, versionMachine.Reachable s ∧ s.idle = true ∧
    s.plan.followed = [(0, 1)] ∧ latest s.plan = some 2 ∧ ¬ s.Agree := by
  have stale : ∃ s, versionMachine.run museumTrips
      ([.load false, .findExisting 0] ++ acceptFirst ++ [.insert 0]) = some s ∧ s.idle = true ∧
        s.plan.followed = [(0, 1)] ∧ latest s.plan = some 2 ∧
          ∃ trip ∈ s.plan.trips, ended trip.state = false ∧ trip.currentPlanVersion = 1 := by
    decide +kernel
  obtain ⟨s, ran, idle, followed, version, trip, member, live, old⟩ := stale
  refine ⟨s, Machine.reachable_of_run _ museumTrips_initial ran, idle, followed, version, ?_⟩
  intro agree
  have same := version.symm.trans (agree idle trip member live)
  rw [old] at same
  contradiction

end MapGo.Companion
