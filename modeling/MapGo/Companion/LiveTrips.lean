import MapGo.Companion.TripState

/-! Creation of trips for one planning run of one user. A call looks for a trip that is not over and
inserts its own in a later statement; requests and workflows write the stored trips in between. -/
namespace MapGo.Companion

open Transition MapGo.Patch

/-- The latest plan version and what its snapshot says of itself. -/
structure VersionRecord where
  version : Nat
  status : Option String
  planningState : Option String

/-- What `create_trip_session` reads of the user's planning run. -/
structure PlanRecord where
  status : String
  version : Option VersionRecord

/-- The checks before the lookup, with the version that the trip will follow. -/
def executableVersion (featureCompanionAgent : Bool) (run : Option PlanRecord) :
    Except AppError Nat :=
  if !featureCompanionAgent then .error ⟨404, "FEATURE_DISABLED", "伴游 Agent 功能当前未启用"⟩
  else match run with
    | none => .error ⟨404, "PLAN_RUN_NOT_FOUND", "规划记录不存在"⟩
    | some run =>
        if run.status ≠ "success" then
          .error ⟨409, "PLAN_NOT_EXECUTABLE", "只有满足硬约束的成功计划才能开始行程"⟩
        else match run.version with
          | none => .error ⟨409, "PLAN_NOT_READY", "需要先生成正式计划"⟩
          | some version =>
              if version.status ≠ some "success" || version.planningState ≠ some "PLAN_READY" then
                .error ⟨409, "PLAN_NOT_EXECUTABLE", "正式版本未处于可执行状态"⟩
              else .ok version.version

/-- How far a call has come; an answer holds the trip's id and its state. -/
inductive CreateCall where
  | checked (version reminderCooldownMinutes : Nat)
  | unopposed (version reminderCooldownMinutes : Nat)
  | answered (tripId : Nat) (state : TripState)
  | refused (error : AppError)
  | lost
  deriving DecidableEq

/-- The user's trips of the run with their ids in the order of insertion, and the calls. -/
structure TripDesk where
  store : TripStore := {}
  rows : List Nat := []
  calls : List CreateCall := []

/-- An insertion names the id that the sequence of the table hands out. -/
inductive DeskAction where
  | trip (action : TripAction)
  | call (featureCompanionAgent : Bool) (run : Option PlanRecord) (reminderCooldownMinutes : Nat)
  | findExisting (index : Nat)
  | insert (index tripId : Nat)
  | crash (index : Nat)

/-- Insertions are steps of their own here. -/
def insertsTrip : TripAction → Bool
  | .createTrip .. => true
  | _ => false

namespace TripDesk

def setCall (s : TripDesk) (index : Nat) (call : CreateCall) : TripDesk :=
  { s with calls := s.calls.set index call }

/-- The trip of a row, unless it is over. -/
def liveTrip (s : TripDesk) (id : Nat) : Option TripRow :=
  (s.store.trips id).filter fun trip => !ended trip.state

/-- The first stored trip that is neither completed nor cancelled. -/
def existing (s : TripDesk) : Option (Nat × TripRow) :=
  s.rows.findSome? fun id => (s.liveTrip id).map fun trip => (id, trip)

def found (s : TripDesk) (version reminderCooldownMinutes : Nat) : CreateCall :=
  match s.existing with
  | some (id, trip) => .answered id trip.state
  | none => .unopposed version reminderCooldownMinutes

end TripDesk

/-- Any number of calls beside the requests and workflows that write trips. -/
def creationMachine : Machine TripDesk DeskAction where
  initial s := s = {}
  step s
    | .trip action =>
        if insertsTrip action then none
        else (tripMachine.step s.store action).map fun store => { s with store := store }
    | .call enabled run cooldown =>
        let call := match executableVersion enabled run with
          | .ok version => .checked version cooldown
          | .error error => .refused error
        some { s with calls := s.calls ++ [call] }
    | .findExisting index => (s.calls[index]?).bind fun
        | .checked version cooldown => some (s.setCall index (s.found version cooldown))
        | _ => none
    | .insert index tripId => (s.calls[index]?).bind fun
        | .unopposed version cooldown =>
            (tripMachine.step s.store (.createTrip tripId cooldown version)).map fun store =>
              { s with store := store, rows := s.rows ++ [tripId] }.setCall index
                (.answered tripId .planReady)
        | _ => none
    | .crash index => if index < s.calls.length then some (s.setCall index .lost) else none

/-- The state that a request leaves in the row it has read. -/
def TripRequest.target : TripRequest → TripRow → TripState
  | .transition target, trip =>
      if target ∈ allowedTransitions trip.state then target else trip.state
  | .updateLocation offRoute _, trip => if offRoute && trip.underWay then .offRoute else trip.state
  | .ingestEvent type payload _, trip => (eventTarget type payload).getD trip.state
  | .acceptPatch version, trip =>
      if trip.currentPlanVersion + 1 = version && trip.state = .replanning then .activeTrip
      else trip.state
  | _, trip => trip.state

def WorkflowStep.target (stored trip : TripRow) : WorkflowStep → TripState
  | .replan (.created ..) => .replanning
  | .replan (.noFeasibleReplan ..) => .atRisk
  | .replan (.stillFeasible ..) => .activeTrip
  | .replan _ => trip.state
  | .block => .atRisk
  | .applyPatch version =>
      if stored.currentPlanVersion + 1 = version && trip.state = .replanning then .activeTrip
      else trip.state

/-- A session whose trip has ended meanwhile writes a state that is not over. -/
def TripRow.revives (stored loaded : TripRow) (target : TripState) : Bool :=
  ended stored.state && target ≠ loaded.state && !ended target

namespace TripDesk

/-- The trips that are neither completed nor cancelled. -/
def live (s : TripDesk) : Set Nat := {id | (s.liveTrip id).isSome}

def AtMostOneLive (s : TripDesk) : Prop := s.live.Subsingleton

def othersEnded (s : TripDesk) (tripId : Nat) : Bool :=
  s.rows.all fun id => id = tripId || (s.liveTrip id).isNone

/-- What a call looked up still holds when it inserts, and an ended trip is taken up again only
where no other trip is live. -/
def undisturbed (s : TripDesk) : DeskAction → Bool
  | .insert index _ => (s.calls[index]?).all fun
      | .unopposed .. => s.existing.isNone
      | _ => true
  | .trip (.commit index) => (s.store.session index).all fun (session, stored) =>
      match session.work with
      | .request request =>
          !stored.revives session.trip (request.target session.trip) || s.othersEnded session.tripId
      | _ => true
  | .trip (.proceed index step) => (s.store.session index).all fun (session, stored) =>
      !stored.revives session.trip (step.target stored session.trip) || s.othersEnded session.tripId
  | _ => true

end TripDesk

/-! ### What the operations write -/

variable {stored loaded new trip : TripRow}

theorem handle_target {request : TripRequest} (handled : request.handle trip = .ok new) :
    new.state = request.target trip := by
  cases request with
  | transition target =>
      simp only [TripRequest.handle, TripRow.transition, validateTransition] at handled
      by_cases allowed : target ∈ allowedTransitions trip.state
      · simp only [if_pos allowed, bind, Except.bind, pure, Except.pure, Except.ok.injEq] at handled
        subst handled
        exact (if_pos allowed).symm
      · simp [allowed, bind, Except.bind] at handled
  | setConsent scope granted =>
      cases handled
      simp only [TripRow.setConsent, TripRequest.target]
      split <;> rfl
  | updateLocation offRoute now =>
      simp only [TripRequest.handle, TripRow.updateLocation] at handled
      split at handled
      · contradiction
      · rename_i under
        split at handled
        · rename_i off
          cases handled
          simp_all [TripRequest.target, TripRow.notified, eventOutcome]
        · rename_i off
          cases handled
          cases offRoute <;> simp_all [TripRequest.target]
  | ingestEvent type payload now =>
      cases handled
      exact nextState_eq
  | deleteTripLocations =>
      cases handled
      rfl
  | acceptPatch version =>
      cases handled
      by_cases follows : trip.currentPlanVersion + 1 = version
      · by_cases replanning : trip.state = .replanning <;>
          simp [TripRow.acceptPatch, TripRequest.target, follows, replanning]
      · simp [TripRequest.target, follows]

/-- A refused request would leave the state as it is. -/
theorem handle_refused {request : TripRequest} {error : AppError}
    (refused : request.handle trip = .error error) : request.target trip = trip.state := by
  cases request with
  | transition target =>
      simp only [TripRequest.handle, TripRow.transition, validateTransition] at refused
      by_cases allowed : target ∈ allowedTransitions trip.state
      · simp [allowed, bind, Except.bind, pure, Except.pure] at refused
      · exact if_neg allowed
  | updateLocation offRoute now =>
      simp only [TripRequest.handle, TripRow.updateLocation] at refused
      split at refused
      · simp_all [TripRequest.target]
      · split at refused <;> contradiction
  | _ => contradiction

theorem proceed_target (step : WorkflowStep) :
    (step.handle stored trip).state = step.target stored trip := by
  cases step with
  | replan result => cases result <;> rfl
  | block => rfl
  | applyPatch version =>
      simp only [WorkflowStep.handle, WorkflowStep.target]
      by_cases follows : stored.currentPlanVersion + 1 = version
      · by_cases replanning : trip.state = .replanning <;>
          simp [TripRow.acceptPatch, follows, replanning]
      · simp [follows]

/-- Only a write that revives a trip takes it out of the states that are over. -/
theorem revives_iff : stored.revives loaded new.state = true ↔
    ended stored.state = true ∧ ended (stored.flush loaded new).state = false := by
  by_cases same : new.state = loaded.state
  · rw [TripRow.flush_state same]
    simp [TripRow.revives, same]
  · simp [TripRow.revives, TripRow.flush, same]

namespace TripDesk
variable {s t : TripDesk} {index tripId : Nat} {store : TripStore} {session : DbSession}

/-! ### The set of live trips -/

theorem liveTrip_eq (row : s.store.trips tripId = some trip) :
    tripId ∈ s.live ↔ ended trip.state = false := by
  simp [live, liveTrip, row]

theorem live_congr (same : t.store.trips = s.store.trips) : t.live = s.live := by
  rw [live, live]
  simp only [liveTrip, same]

theorem notMem_live : tripId ∉ s.live ↔ s.liveTrip tripId = none := by
  simp [live]

/-- Every stored trip is among the rows. -/
def Listed (s : TripDesk) : Prop := ∀ id, s.store.trips id ≠ none → id ∈ s.rows

theorem Listed.live (listed : s.Listed) (member : tripId ∈ s.live) : tripId ∈ s.rows := by
  apply listed
  intro absent
  simp [TripDesk.live, liveTrip, absent] at member

theorem othersEnded_iff (listed : s.Listed) : s.othersEnded tripId = true ↔ s.live ⊆ {tripId} := by
  simp only [othersEnded, List.all_eq_true, Bool.or_eq_true, decide_eq_true_eq,
    Option.isNone_iff_eq_none]
  constructor
  · intro ended id member
    rcases ended id (listed.live member) with same | past
    · exact same
    · exact absurd member (notMem_live.mpr past)
  · intro only id _
    by_cases member : id ∈ s.live
    · exact .inl (only member)
    · exact .inr (notMem_live.mp member)

theorem existing_isNone (listed : s.Listed) : s.existing.isNone = true ↔ s.live = ∅ := by
  simp only [existing, Option.isNone_iff_eq_none, List.findSome?_eq_none_iff,
    Option.map_eq_none_iff]
  constructor
  · intro past
    apply Set.eq_empty_of_forall_notMem
    intro id member
    exact notMem_live.mpr (past id (listed.live member)) member
  · intro none id _
    apply notMem_live.mp
    rw [none]
    exact Set.notMem_empty id

theorem subsingleton_insert {S : Set Nat} : (insert tripId S).Subsingleton ↔ S ⊆ {tripId} := by
  rw [Set.subsingleton_iff_singleton (Set.mem_insert tripId S), Set.insert_eq, Set.union_eq_left]

/-! ### What one step does to it -/

/-- The set of live trips after a row was written. -/
theorem live_write (written : t.store.trips = Function.update s.store.trips tripId (some new)) :
    t.live = if ended new.state then s.live \ {tripId} else insert tripId s.live := by
  ext id
  by_cases same : id = tripId
  · subst same
    have now : t.store.trips id = some new := by rw [written, Function.update_self]
    rw [liveTrip_eq now]
    split <;> simp_all
  · have other : t.liveTrip id = s.liveTrip id := by
      rw [liveTrip, liveTrip, written, Function.update_of_ne same]
    rw [TripDesk.live, Set.mem_ofPred_eq, other]
    split <;> simp [same, TripDesk.live]

theorem Listed.write (listed : s.Listed) (row : s.store.trips tripId = some stored)
    (rows : t.rows = s.rows)
    (written : t.store.trips = Function.update s.store.trips tripId (some new)) : t.Listed := by
  intro id present
  rw [rows]
  apply listed
  by_cases same : id = tripId
  · subst same
    simp [row]
  · rwa [written, Function.update_of_ne same] at present

theorem write_single (listed : s.Listed) (single : s.AtMostOneLive)
    (row : s.store.trips tripId = some stored)
    (written : t.store.trips =
      Function.update s.store.trips tripId (some (stored.flush loaded new))) :
    t.AtMostOneLive ↔ (!stored.revives loaded new.state || s.othersEnded tripId) = true := by
  have after := live_write (s := s) written
  by_cases revived : stored.revives loaded new.state = true
  · have awake := (revives_iff.mp revived).2
    rw [awake, if_neg Bool.false_ne_true] at after
    rw [AtMostOneLive, after, subsingleton_insert, ← othersEnded_iff listed, revived]
    simp
  · refine iff_of_true (single.anti ?_) (by simp [revived])
    cases past : ended (stored.flush loaded new).state with
    | true =>
        rw [after, if_pos past]
        exact Set.sdiff_subset
    | false =>
        have before : ended stored.state = false := by
          by_contra ended
          exact revived (revives_iff.mpr ⟨Bool.of_not_eq_false ended, past⟩)
        rw [after, if_neg (by simp [past]), Set.insert_eq_of_mem ((liveTrip_eq row).mpr before)]

/-- Nothing happened to the trips. -/
theorem calm_step (listed : s.Listed) (single : s.AtMostOneLive) (rows : t.rows = s.rows)
    (trips : t.store.trips = s.store.trips) : t.Listed ∧ t.AtMostOneLive := by
  constructor
  · intro id present
    rw [trips] at present
    exact rows ▸ listed id present
  · rw [AtMostOneLive, live_congr trips]
    exact single

theorem update_step (listed : s.Listed) (single : s.AtMostOneLive)
    (found : s.store.session index = some (session, stored)) (work : SessionWork) :
    TripDesk.Listed { s with store := s.store.update index session stored new work } ∧
      (TripDesk.AtMostOneLive { s with store := s.store.update index session stored new work } ↔
        (!stored.revives session.trip new.state || s.othersEnded session.tripId) = true) := by
  have row := (TripStore.session_some found).2
  constructor
  · exact listed.write row rfl rfl
  · exact write_single listed single row rfl

theorem trip_step (listed : s.Listed) (single : s.AtMostOneLive) {action : TripAction}
    (writes : insertsTrip action = false) (stepped : tripMachine.step s.store action = some store) :
    TripDesk.Listed { s with store := store } ∧
      (TripDesk.AtMostOneLive { s with store := store } ↔ s.undisturbed (.trip action) = true) := by
  have calm (trips : store.trips = s.store.trips) :
      TripDesk.Listed { s with store := store } ∧
        TripDesk.AtMostOneLive { s with store := store } :=
    calm_step listed single rfl trips
  cases action with
  | createTrip => contradiction
  | read tripId request =>
      obtain ⟨trip, -, rfl⟩ := Option.map_eq_some_iff.mp stepped
      exact ⟨(calm rfl).1, iff_of_true (calm rfl).2 rfl⟩
  | commit index =>
      obtain ⟨⟨session, stored⟩, found, stepped⟩ := Option.bind_eq_some_iff.mp stepped
      simp only [undisturbed, found, Option.all_some]
      cases work : session.work with
      | request request =>
          simp only [work] at stepped ⊢
          cases handled : request.handle session.trip with
          | error error =>
              simp only [handled, Option.some.injEq] at stepped
              subst stepped
              have still : stored.revives session.trip (request.target session.trip) = false := by
                simp [TripRow.revives, handle_refused handled]
              exact ⟨(calm rfl).1, iff_of_true (calm rfl).2 (by rw [still]; rfl)⟩
          | ok new =>
              simp only [handled, Option.some.injEq] at stepped
              subst stepped
              rw [← handle_target handled]
              exact update_step listed single found .closed
      | _ => simp [work] at stepped
  | startWorkflow tripId =>
      obtain ⟨trip, -, stepped⟩ := Option.bind_eq_some_iff.mp stepped
      split at stepped
      · cases stepped
        exact ⟨(calm rfl).1, iff_of_true (calm rfl).2 rfl⟩
      · contradiction
  | proceed index step =>
      obtain ⟨⟨session, stored⟩, found, stepped⟩ := Option.bind_eq_some_iff.mp stepped
      simp only [undisturbed, found, Option.all_some]
      cases work : session.work with
      | workflow =>
          simp only [work, Option.some.injEq] at stepped
          subst stepped
          rw [← proceed_target]
          exact update_step listed single found .workflow
      | _ => simp [work] at stepped
  | close index =>
      simp only [tripMachine] at stepped
      split at stepped
      · cases stepped
        exact ⟨(calm rfl).1, iff_of_true (calm rfl).2 rfl⟩
      · contradiction

/-- An insertion keeps the trip alone exactly when no other is live. -/
theorem insert_step (listed : s.Listed) {cooldown version : Nat}
    (stepped : tripMachine.step s.store (.createTrip tripId cooldown version) = some store)
    (stores : t.store = store) (rows : t.rows = s.rows ++ [tripId]) :
    t.Listed ∧ (t.AtMostOneLive ↔ s.existing.isNone = true) := by
  simp only [tripMachine] at stepped
  split at stepped
  · contradiction
  · rename_i free
    cases stepped
    have absent : s.store.trips tripId = none := by simpa using free
    have written : t.store.trips = Function.update s.store.trips tripId
        (some { currentPlanVersion := version, reminderCooldownMinutes := cooldown }) := by
      rw [stores]
    constructor
    · intro id present
      rw [rows]
      by_cases same : id = tripId
      · exact List.mem_append_right _ (List.mem_singleton.mpr same)
      · rw [written, Function.update_of_ne same] at present
        exact List.mem_append_left _ (listed id present)
    · have after : t.live = insert tripId s.live := live_write written
      have out : tripId ∉ s.live := notMem_live.mpr (by simp [liveTrip, absent])
      rw [AtMostOneLive, after, subsingleton_insert, existing_isNone listed]
      constructor
      · intro only
        apply Set.eq_empty_of_forall_notMem
        intro id member
        exact out (only member ▸ member)
      · intro none
        rw [none]
        exact Set.empty_subset _

theorem desk_step (listed : s.Listed) (single : s.AtMostOneLive) {action : DeskAction}
    (stepped : creationMachine.step s action = some t) :
    t.Listed ∧ (t.AtMostOneLive ↔ s.undisturbed action = true) := by
  have calm (rows : t.rows = s.rows) (trips : t.store = s.store) : t.Listed ∧ t.AtMostOneLive :=
    calm_step listed single rows (by rw [trips])
  cases action with
  | trip action =>
      simp only [creationMachine] at stepped
      split at stepped
      · contradiction
      · rename_i writes
        obtain ⟨store, moved, rfl⟩ := Option.map_eq_some_iff.mp stepped
        exact trip_step listed single (eq_false_of_ne_true writes) moved
  | call enabled run cooldown =>
      cases stepped
      exact ⟨(calm rfl rfl).1, iff_of_true (calm rfl rfl).2 rfl⟩
  | findExisting index =>
      obtain ⟨call, -, stepped⟩ := Option.bind_eq_some_iff.mp stepped
      split at stepped
      · cases stepped
        exact ⟨(calm rfl rfl).1, iff_of_true (calm rfl rfl).2 rfl⟩
      · contradiction
  | insert index tripId =>
      obtain ⟨call, present, stepped⟩ := Option.bind_eq_some_iff.mp stepped
      split at stepped
      · obtain ⟨store, inserted, rfl⟩ := Option.map_eq_some_iff.mp stepped
        simp only [undisturbed, present, Option.all_some]
        exact insert_step listed inserted rfl rfl
      · contradiction
  | crash index =>
      simp only [creationMachine] at stepped
      split at stepped
      · cases stepped
        exact ⟨(calm rfl rfl).1, iff_of_true (calm rfl rfl).2 rfl⟩
      · contradiction

theorem single_of_reachable (reached : (creationMachine.restrict fun s action =>
    s.undisturbed action = true).Reachable s) : s.Listed ∧ s.AtMostOneLive := by
  apply reached.invariant (P := fun s => s.Listed ∧ s.AtMostOneLive)
  · rintro _ rfl
    constructor
    · intro id present
      exact absurd rfl present
    · intro id member
      simp [TripDesk.live, liveTrip] at member
  · intro s action t inv stepped
    obtain ⟨undisturbed, stepped⟩ := Machine.restrict_step.mp stepped
    obtain ⟨listed, single⟩ := desk_step inv.1 inv.2 stepped
    exact ⟨listed, single.mpr undisturbed⟩

end TripDesk

/-- In every state of a run whose insertions find no live trip, and whose writes take up an ended
trip only where no other is live, at most one trip is neither completed nor cancelled. The next step
keeps it so exactly when it meets the condition too. -/
theorem one_live_trip (s : TripDesk) (reached : (creationMachine.restrict fun s action =>
    s.undisturbed action = true).Reachable s) :
    s.AtMostOneLive ∧ ∀ action t, creationMachine.step s action = some t →
      (t.AtMostOneLive ↔ s.undisturbed action = true) := by
  obtain ⟨listed, single⟩ := TripDesk.single_of_reachable reached
  exact ⟨single, fun action t stepped => (TripDesk.desk_step listed single stepped).2⟩

def readyRun : Option PlanRecord := some ⟨"success", some ⟨1, some "success", some "PLAN_READY"⟩⟩

/-- A trip is created and cancelled, then a second one is created. -/
def createdAfterEnd : List DeskAction :=
  [.call true readyRun 15, .findExisting 0, .insert 0 0, .trip (.read 0 (.transition .cancelled)),
    .trip (.commit 0), .call true readyRun 15, .findExisting 1, .insert 1 1]

theorem one_live_trip_second : ∃ s : TripDesk, s.rows = [0, 1] ∧ s.AtMostOneLive := by
  have created : ∃ s, creationMachine.run {} createdAfterEnd = some s ∧ s.rows = [0, 1] := by
    decide +kernel
  obtain ⟨s, ran, rows⟩ := created
  have met : creationMachine.along TripDesk.undisturbed {} createdAfterEnd = true := by
    decide +kernel
  have reached := Machine.reachable_restrict_of_run _ rfl ran (Machine.meetsAlong_of_along met)
  exact ⟨s, rows, (one_live_trip s reached).1⟩

/-- Both calls look before either inserts. -/
def overlappingCalls : List DeskAction :=
  [.call true readyRun 15, .call true readyRun 15, .findExisting 0, .findExisting 1, .insert 0 0,
    .insert 1 1]

theorem overlapping_calls_double : ∃ s, creationMachine.Reachable s ∧
    s.calls = [.answered 0 .planReady, .answered 1 .planReady] ∧ ¬ s.AtMostOneLive := by
  have doubled : ∃ s, creationMachine.run {} overlappingCalls = some s ∧
      s.calls = [.answered 0 .planReady, .answered 1 .planReady] ∧
      (s.liveTrip 0).isSome = true ∧ (s.liveTrip 1).isSome = true := by decide +kernel
  obtain ⟨s, ran, calls, first, second⟩ := doubled
  refine ⟨s, Machine.reachable_of_run _ rfl ran, calls, fun single => ?_⟩
  have same : (0 : Nat) = 1 := single first second
  contradiction

/-- Nor do calls have to overlap: an event takes up the cancelled trip beside its successor. -/
theorem resumed_trip_doubles : ∃ s, creationMachine.Reachable s ∧ ¬ s.AtMostOneLive := by
  have doubled : ∃ s, creationMachine.run {} (createdAfterEnd ++
      [.trip (.read 0 (.ingestEvent .userResumed {} 0)), .trip (.commit 1)]) = some s ∧
      (s.liveTrip 0).isSome = true ∧ (s.liveTrip 1).isSome = true := by decide +kernel
  obtain ⟨s, ran, first, second⟩ := doubled
  refine ⟨s, Machine.reachable_of_run _ rfl ran, fun single => ?_⟩
  have same : (0 : Nat) = 1 := single first second
  contradiction

end MapGo.Companion
