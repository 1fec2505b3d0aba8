import MapGo.Companion.TripState
import MapGo.Patch.Dynamic
import MapGo.Runtime.Lock

/-! The replans of one trip, their budget and the document that counts them. The worker and the API
lock different names, location updates lock nothing, and each writes back the document that its
session has read. -/
namespace MapGo.Companion

open Transition MapGo.Patch MapGo.Route MapGo.Runtime

/-- The document in `context_json`. -/
structure TripContext where
  autoApplyLowRiskPatches : Bool := false
  replanCount : Nat := 0
  offRouteSeconds : ℚ := 0
  lastOffRouteDistanceM : Option (WithTop ℚ) := none
  deriving DecidableEq

structure TripRecord where
  row : TripRow
  context : TripContext

/-- The trip that `evaluate_off_route` judges at a new location. -/
structure OffRouteVerdict where
  offRoute : Bool
  sustainedSeconds : ℚ
  distanceMeters : WithTop ℚ

namespace TripRecord

def updateLocation (trip : TripRecord) (verdict : OffRouteVerdict) (now : Instant) :
    Except AppError TripRecord := do
  let row ← trip.row.updateLocation verdict.offRoute now
  return {
    row := row
    context := { trip.context with
      offRouteSeconds := verdict.sustainedSeconds
      lastOffRouteDistanceM := some verdict.distanceMeters } }

/-- The trip as `create_pending_replan` leaves it in its session. -/
def replan (trip : TripRecord) (result : Replanned) : TripRecord where
  row := trip.row.replan result
  context := match result with
    | .created .. => { trip.context with replanCount := trip.context.replanCount + 1 }
    | _ => trip.context

/-- `UPDATE` of the columns that a session has changed since it loaded them. -/
def flush (stored loaded new : TripRecord) : TripRecord where
  row := stored.row.flush loaded.row new.row
  context := if new.context = loaded.context then stored.context else new.context

def session (trip : TripRecord) (tripId : Nat) : TripSession where
  id := tripId
  state := trip.row.state
  currentPlanVersion := trip.row.currentPlanVersion
  replanCount := trip.context.replanCount
  autoApplyLowRiskPatches := trip.context.autoApplyLowRiskPatches

end TripRecord

structure ReplanSettings where
  tripId : Nat
  maxReplansPerTrip : Nat
  workerLockTtlSeconds : Int

/-- The worker reads the trip under its lock, the API before it takes its own. -/
inductive ReplanWork where
  /-- `process_trip_event` with its lock token -/
  | locked (name token : String)
  /-- `replan_remaining_trip` before its lock -/
  | checked (trip : TripRecord)
  | replanning (name token : String) (trip : TripRecord)
  | solved (name token : String) (trip : TripRecord) (reason : String) (result : Replanned)
  | unlocking (name token : String)
  /-- `update_location` -/
  | locating (trip : TripRecord)
  | closed

structure TripReplans where
  locks : LockStore
  plan : PlanRun
  trip : TripRecord
  work : List ReplanWork := []
  /-- History: the patches that `create_pending_replan` has made for the trip. -/
  created : List Nat := []

/-- Other requests write the plans and the row of the trip, but not its document, and lock and
renew as they like. -/
inductive ReplanAction where
  | plan (action : PlanAction)
  | trip (row : TripRow)
  | lock (call : LockCall)
  | lockWorker (uuid : Uuid)
  | loadWorker (index : Nat)
  | checkApi
  | lockApi (index : Nat) (uuid : Uuid)
  | solve (index : Nat) (solver : RoutingSolver) (provider : MapProvider)
      (request : PendingReplanRequest)
  | commit (index : Nat)
  | unlock (index : Nat)
  | locate
  | commitLocation (index : Nat) (verdict : OffRouteVerdict) (now : Instant)
  | crash (index : Nat)

namespace TripReplans

def set (s : TripReplans) (index : Nat) (work : ReplanWork) : TripReplans :=
  { s with work := s.work.set index work }

def start (s : TripReplans) (work : ReplanWork) : TripReplans := { s with work := s.work ++ [work] }

/-- The commit of `create_pending_replan`. -/
def record (s : TripReplans) (trip : TripRecord) (reason : String) (result : Replanned) :
    TripReplans :=
  let s := { s with trip := s.trip.flush trip (trip.replan result) }
  match result with
  | .created operations impact _ => { s with
      plan := s.plan.addPatch trip.row.currentPlanVersion operations reason impact
      created := s.created ++ [s.plan.nextPatchId] }
  | _ => s

end TripReplans

def workerLock (tripId : Nat) : String := "agent-run:trip:" ++ toString tripId

def apiLock (tripId : Nat) : String := "trip-mutate:" ++ toString tripId

def replanMachine (settings : ReplanSettings) : Machine TripReplans ReplanAction where
  initial s := s = { locks := s.locks, plan := s.plan, trip := s.trip } ∧
    s.trip.context.replanCount = 0
  step s
    | .plan action => (planRunMachine.step s.plan action).map fun plan => { s with plan := plan }
    | .trip row => some { s with trip := { s.trip with row := row } }
    | .lock call => (lockMachine.step s.locks call).map fun locks => { s with locks := locks }
    | .lockWorker uuid =>
        let name := workerLock settings.tripId
        match s.locks.acquireLock name settings.workerLockTtlSeconds none uuid with
        | (none, _) => none
        | (some token, locks) => some ({ s with locks := locks }.start (.locked name token))
    | .loadWorker index => (s.work[index]?).bind fun
        | .locked name token => some (s.set index (.replanning name token s.trip))
        | _ => none
    | .checkApi =>
        if s.trip.row.underWay ∧ s.trip.context.replanCount < settings.maxReplansPerTrip then
          some (s.start (.checked s.trip))
        else none
    | .lockApi index uuid => (s.work[index]?).bind fun
        | .checked trip =>
            let name := apiLock settings.tripId
            match s.locks.acquireLock name 20 none uuid with
            | (none, _) => some (s.set index .closed)
            | (some token, locks) =>
                some ({ s with locks := locks }.set index (.replanning name token trip))
        | _ => none
    | .solve index solver provider request => (s.work[index]?).bind fun
        | .replanning name token trip =>
            match createPendingReplan solver settings.maxReplansPerTrip provider s.plan.versions
                s.plan.patches (trip.session settings.tripId) request with
            | .error _ => some (s.set index (.unlocking name token))
            | .ok result => some (s.set index (.solved name token trip request.reason result))
        | _ => none
    | .commit index => (s.work[index]?).bind fun
        | .solved name token trip reason result =>
            some ((s.record trip reason result).set index (.unlocking name token))
        | _ => none
    | .unlock index => (s.work[index]?).bind fun
        | .unlocking name token =>
            some ({ s with locks := (s.locks.releaseLock name token).2 }.set index .closed)
        | _ => none
    | .locate => some (s.start (.locating s.trip))
    | .commitLocation index verdict now => (s.work[index]?).bind fun
        | .locating trip =>
            match trip.updateLocation verdict now with
            | .error _ => some (s.set index .closed)
            | .ok new => some ({ s with trip := s.trip.flush trip new }.set index .closed)
        | _ => none
    | .crash index => if index < s.work.length then some (s.set index .closed) else none

namespace TripReplans

/-- The stored count is that of the patches, and they are within the budget. -/
def WithinBudget (settings : ReplanSettings) (s : TripReplans) : Prop :=
  s.trip.context.replanCount = s.created.length ∧ s.created.length ≤ settings.maxReplansPerTrip

/-- What a commit writes does not change the document, or the count is still the one it has read. -/
def fresh (s : TripReplans) (loaded new : TripRecord) : Bool :=
  new.context = loaded.context || loaded.context.replanCount = s.trip.context.replanCount

def current (s : TripReplans) : ReplanAction → Bool
  | .commit index => (s.work[index]?).all fun
      | .solved _ _ trip _ result => s.fresh trip (trip.replan result)
      | _ => true
  | .commitLocation index verdict now => (s.work[index]?).all fun
      | .locating trip => match trip.updateLocation verdict now with
        | .error _ => true
        | .ok new => s.fresh trip new
      | _ => true
  | _ => true

variable {settings : ReplanSettings} {s t : TripReplans}

/-- A session that is about to commit a patch has passed the limit check. -/
def Checked (settings : ReplanSettings) : ReplanWork → Prop
  | .solved _ _ trip _ (.created ..) => trip.context.replanCount < settings.maxReplansPerTrip
  | _ => True

structure Budgeted (settings : ReplanSettings) (s : TripReplans) : Prop where
  within : s.WithinBudget settings
  checked : ∀ work ∈ s.work, Checked settings work

/-- What a step does to the document and the patches of the trip. -/
inductive Writes (settings : ReplanSettings) (s t : TripReplans) (fresh : Bool) : Prop
  | calm (context : t.trip.context = s.trip.context) (created : t.created = s.created)
      (fresh : fresh = true)
  | count (trip : TripRecord) (below : trip.context.replanCount < settings.maxReplansPerTrip)
      (context : t.trip.context.replanCount = trip.context.replanCount + 1)
      (created : t.created.length = s.created.length + 1)
      (fresh : fresh = decide (trip.context.replanCount = s.trip.context.replanCount))
  | copy (trip : TripRecord) (context : t.trip.context.replanCount = trip.context.replanCount)
      (created : t.created = s.created)
      (fresh : fresh = decide (trip.context.replanCount = s.trip.context.replanCount))

theorem Writes.within_iff {fresh : Bool} (writes : Writes settings s t fresh)
    (within : s.WithinBudget settings) : t.WithinBudget settings ↔ fresh = true := by
  obtain ⟨counted, bound⟩ := within
  cases writes with
  | calm context created fresh =>
      rw [fresh, WithinBudget, context, created]
      exact iff_of_true ⟨counted, bound⟩ rfl
  | count trip below context created fresh =>
      rw [fresh, decide_eq_true_eq, WithinBudget, context, created]
      omega
  | copy trip context created fresh =>
      rw [fresh, decide_eq_true_eq, WithinBudget, context, created]
      omega

theorem checked_of_answered {solver : RoutingSolver} {provider : MapProvider}
    {versions : List PlanVersion} {patches : List PlanPatch} {request : PendingReplanRequest}
    {trip : TripRecord} {result : Replanned} (name token : String)
    (answered : createPendingReplan solver settings.maxReplansPerTrip provider versions patches
      (trip.session settings.tripId) request = .ok result) :
    Checked settings (.solved name token trip request.reason result) := by
  cases result with
  | created operations impact alternatives =>
      apply lt_of_not_ge
      intro spent
      have refused : settings.maxReplansPerTrip ≤ (trip.session settings.tripId).replanCount := spent
      rw [createPendingReplan, if_pos refused] at answered
      cases answered
  | _ => trivial

theorem record_writes (s : TripReplans) {name token reason : String} {trip : TripRecord}
    {result : Replanned} (checked : Checked settings (.solved name token trip reason result)) :
    Writes settings s (s.record trip reason result) (s.fresh trip (trip.replan result)) := by
  cases result with
  | created operations impact alternatives =>
      have changed : { trip.context with replanCount := trip.context.replanCount + 1 } ≠
          trip.context := by
        intro same
        have counts := congrArg TripContext.replanCount same
        exact Nat.succ_ne_self _ counts
      refine .count trip checked ?_ ?_ ?_
      · simp [record, TripRecord.flush, TripRecord.replan, changed]
      · simp [record]
      · simp [fresh, TripRecord.replan, changed]
  | _ =>
      refine .calm ?_ rfl ?_
      · simp [record, TripRecord.flush, TripRecord.replan]
      · simp [fresh, TripRecord.replan]

theorem Writes.set {fresh : Bool} (writes : Writes settings s t fresh) (index : Nat)
    (work : ReplanWork) : Writes settings s (t.set index work) fresh := by
  cases writes with
  | calm context created fresh => exact .calm context created fresh
  | count trip below context created fresh => exact .count trip below context created fresh
  | copy trip context created fresh => exact .copy trip context created fresh

theorem record_work (s : TripReplans) (trip : TripRecord) (reason : String) (result : Replanned) :
    (s.record trip reason result).work = s.work := by
  cases result <;> rfl

theorem flush_writes (s : TripReplans) {trip new : TripRecord} (index : Nat) (work : ReplanWork)
    (same : new.context.replanCount = trip.context.replanCount) :
    Writes settings s ({ s with trip := s.trip.flush trip new }.set index work)
      (s.fresh trip new) := by
  by_cases kept : new.context = trip.context
  · refine .calm ?_ rfl ?_
    · simp [set, TripRecord.flush, kept]
    · simp [fresh, kept]
  · refine .copy trip ?_ rfl ?_
    · simp [set, TripRecord.flush, kept, same]
    · simp [fresh, kept]

theorem updateLocation_count {trip new : TripRecord} {verdict : OffRouteVerdict} {now : Instant}
    (updated : trip.updateLocation verdict now = .ok new) :
    new.context.replanCount = trip.context.replanCount := by
  obtain ⟨row, -, made⟩ := bind_eq_ok.mp updated
  cases made
  rfl

namespace Budgeted

theorem set (checked : ∀ work ∈ s.work, Checked settings work) {index : Nat} {work : ReplanWork}
    (new : Checked settings work) : ∀ other ∈ (s.set index work).work, Checked settings other := by
  intro other member
  rcases List.mem_or_eq_of_mem_set member with before | same
  · exact checked other before
  · exact same ▸ new

theorem start (checked : ∀ work ∈ s.work, Checked settings work) {work : ReplanWork}
    (new : Checked settings work) : ∀ other ∈ (s.start work).work, Checked settings other := by
  intro other member
  rcases List.mem_append.mp member with before | last
  · exact checked other before
  · exact List.mem_singleton.mp last ▸ new

end Budgeted

theorem step_writes (checked : ∀ work ∈ s.work, Checked settings work) {action : ReplanAction}
    (stepped : (replanMachine settings).step s action = some t) :
    Writes settings s t (s.current action) ∧ ∀ work ∈ t.work, Checked settings work := by
  cases action with
  | plan action =>
      obtain ⟨plan, -, rfl⟩ := Option.map_eq_some_iff.mp stepped
      exact ⟨.calm rfl rfl rfl, checked⟩
  | trip row =>
      cases stepped
      exact ⟨.calm rfl rfl rfl, checked⟩
  | lock call =>
      obtain ⟨locks, -, rfl⟩ := Option.map_eq_some_iff.mp stepped
      exact ⟨.calm rfl rfl rfl, checked⟩
  | lockWorker uuid =>
      simp only [replanMachine] at stepped
      split at stepped
      · contradiction
      · cases stepped
        exact ⟨.calm rfl rfl rfl, Budgeted.start checked trivial⟩
  | loadWorker index =>
      obtain ⟨work, present, stepped⟩ := Option.bind_eq_some_iff.mp stepped
      split at stepped
      · cases stepped
        exact ⟨.calm rfl rfl rfl, Budgeted.set checked trivial⟩
      · contradiction
  | checkApi =>
      simp only [replanMachine] at stepped
      split at stepped
      · cases stepped
        exact ⟨.calm rfl rfl rfl, Budgeted.start checked trivial⟩
      · contradiction
  | lockApi index uuid =>
      obtain ⟨work, present, stepped⟩ := Option.bind_eq_some_iff.mp stepped
      split at stepped
      · dsimp only at stepped
        split at stepped
        all_goals
          cases stepped
          exact ⟨.calm rfl rfl rfl, Budgeted.set checked trivial⟩
      · contradiction
  | solve index solver provider request =>
      obtain ⟨work, present, stepped⟩ := Option.bind_eq_some_iff.mp stepped
      split at stepped
      · split at stepped
        · cases stepped
          exact ⟨.calm rfl rfl rfl, Budgeted.set checked trivial⟩
        · rename_i answered
          cases stepped
          exact ⟨.calm rfl rfl rfl, Budgeted.set checked (checked_of_answered _ _ answered)⟩
      · contradiction
  | commit index =>
      obtain ⟨work, present, stepped⟩ := Option.bind_eq_some_iff.mp stepped
      simp only [current, present, Option.all_some]
      split at stepped
      · cases stepped
        have writes := record_writes s (checked _ (List.mem_of_getElem? present))
        exact ⟨writes.set index _, Budgeted.set (record_work s _ _ _ ▸ checked) trivial⟩
      · contradiction
  | unlock index =>
      obtain ⟨work, present, stepped⟩ := Option.bind_eq_some_iff.mp stepped
      split at stepped
      · cases stepped
        exact ⟨.calm rfl rfl rfl, Budgeted.set checked trivial⟩
      · contradiction
  | locate =>
      cases stepped
      exact ⟨.calm rfl rfl rfl, Budgeted.start checked trivial⟩
  | commitLocation index verdict now =>
      obtain ⟨work, present, stepped⟩ := Option.bind_eq_some_iff.mp stepped
      simp only [current, present, Option.all_some]
      split at stepped
      · split at stepped
        · rename_i refused
          cases stepped
          exact ⟨.calm rfl rfl rfl, Budgeted.set checked trivial⟩
        · rename_i updated
          cases stepped
          exact ⟨flush_writes s index .closed (updateLocation_count updated),
            Budgeted.set checked trivial⟩
      · contradiction
  | crash index =>
      simp only [replanMachine] at stepped
      split at stepped
      · cases stepped
        exact ⟨.calm rfl rfl rfl, Budgeted.set checked trivial⟩
      · contradiction

theorem Budgeted.of_reachable (reached : ((replanMachine settings).restrict
    fun s action => s.current action = true).Reachable s) : s.Budgeted settings := by
  refine reached.invariant (fun s start => ?_) fun inv stepped => ?_
  · obtain ⟨fresh, zero⟩ := start
    rw [fresh]
    exact ⟨⟨zero, Nat.zero_le _⟩, List.forall_mem_nil _⟩
  · obtain ⟨current, stepped⟩ := Machine.restrict_step.mp stepped
    obtain ⟨writes, checked⟩ := step_writes inv.checked stepped
    exact ⟨(writes.within_iff inv.within).mpr current, checked⟩

end TripReplans

/-- In every state of a run whose commits write a document with the count that is stored, the count
is that of the trip's patches and within the budget; the next step keeps to this exactly when it
meets the condition too. -/
theorem replan_budget (settings : ReplanSettings) (s : TripReplans)
    (reached : ((replanMachine settings).restrict fun s action =>
      s.current action = true).Reachable s) :
    s.WithinBudget settings ∧ ∀ action t, (replanMachine settings).step s action = some t →
      (t.WithinBudget settings ↔ s.current action = true) := by
  have budgeted := TripReplans.Budgeted.of_reachable reached
  refine ⟨budgeted.within, fun action t stepped => ?_⟩
  have writes := (TripReplans.step_writes budgeted.checked stepped).1
  exact writes.within_iff budgeted.within

/-! A budget of one replan. The worker replans for the event 7, 15 minutes late. In time, the API
reads the trip after that; else both read it before either commits. -/

def oneReplan : ReplanSettings := ⟨1, 1, 300⟩

def startedTrip : TripReplans where
  locks := { now := 0 }
  plan := museumRun
  trip := ⟨{ state := .activeTrip }, {}⟩

def owner : Uuid := ⟨"a1", by decide⟩

def replanOf (index : Nat) : List ReplanAction :=
  [.solve index noSolver evenProvider (delayed 900), .commit index, .unlock index]

/-- The request of the API names no event. -/
def manual : PendingReplanRequest := { delayed 900 with sourceEventId := none }

def replanTwice : List ReplanAction :=
  [.checkApi, .lockWorker owner, .loadWorker 1, .lockApi 0 owner] ++ replanOf 1 ++
    [.solve 0 noSolver evenProvider manual, .commit 0]

def replanThenLocate : List ReplanAction :=
  [.lockWorker owner, .loadWorker 0] ++ replanOf 0 ++
    [.locate, .commitLocation 1 ⟨false, 0, 12⟩ 0]

theorem startedTrip_initial : (replanMachine oneReplan).initial startedTrip := ⟨rfl, rfl⟩

theorem replan_budget_located : ∃ s : TripReplans, s.created = [1] ∧
    s.trip.context.lastOffRouteDistanceM = some 12 ∧ s.WithinBudget oneReplan := by
  have located : ∃ s, (replanMachine oneReplan).run startedTrip replanThenLocate = some s ∧
      s.created = [1] ∧ s.trip.context.lastOffRouteDistanceM = some 12 := by decide +kernel
  obtain ⟨s, ran, created, distance⟩ := located
  have met : (replanMachine oneReplan).along TripReplans.current startedTrip replanThenLocate =
      true := by decide +kernel
  have reached := Machine.reachable_restrict_of_run _ startedTrip_initial ran
    (Machine.meetsAlong_of_along met)
  exact ⟨s, created, distance, (replan_budget oneReplan s reached).1⟩

/-- Both replans commit under their locks: two patches, of which the trip counts one, where the
budget is one. -/
theorem replans_lost_and_exceeded : ∃ s, (replanMachine oneReplan).Reachable s ∧
    s.created = [1, 2] ∧ s.trip.context.replanCount = 1 ∧
      oneReplan.maxReplansPerTrip < s.created.length := by
  have twice : ∃ s, (replanMachine oneReplan).run startedTrip replanTwice = some s ∧
      s.created = [1, 2] ∧ s.trip.context.replanCount = 1 := by decide +kernel
  obtain ⟨s, ran, created, count⟩ := twice
  refine ⟨s, Machine.reachable_of_run _ startedTrip_initial ran, created, count, ?_⟩
  rw [created]
  decide

end MapGo.Companion
