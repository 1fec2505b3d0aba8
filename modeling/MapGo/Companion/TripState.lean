import MapGo.Transition
import MapGo.Companion.TripEvents

/-! Trips under the requests and replanning workflows that write them. Each reads its trip into a
session of its own and later writes the columns that it has changed, so writes of different
sessions interleave. Only one of the operations asks for the allowed transitions. -/
namespace MapGo.Companion

open Transition MapGo.Patch

/-- The columns of `trip_sessions` that these operations read and write. -/
structure TripRow where
  state : TripState := .planReady
  currentPlanVersion : Nat := 1
  trackingEnabled : Bool := false
  reminderCooldownMinutes : Nat := 15
  lastNotificationAt : Option Instant := none
  deriving DecidableEq, Repr

def ConsentScope.tracks (scope : ConsentScope) : Bool :=
  scope = .preciseLocation || scope = .backgroundLocation

/-- A request that reads a trip and commits once. Requests that stop at another check, or find their
event stored already, write nothing and are left out. An accepted patch is one request for each trip
that it selects. -/
inductive TripRequest where
  | transition (target : TripState)
  | setConsent (scope : ConsentScope) (granted : Bool)
  | updateLocation (offRoute : Bool) (now : Instant)
  | ingestEvent (type : TripEventType) (payload : TripEventPayload) (now : Instant)
  | deleteTripLocations
  | acceptPatch (version : Nat)

namespace TripRow

/-- The states in which locations are taken and remaining stops are replanned. -/
def underWay (trip : TripRow) : Bool :=
  trip.state ∈ [.activeTrip, .offRoute, .atRisk, .replanning]

def transition (trip : TripRow) (target : TripState) : Except AppError TripRow := do
  validateTransition trip.state target
  return { trip with
    state := target
    trackingEnabled := if ended target then false else trip.trackingEnabled }

def setConsent (trip : TripRow) (scope : ConsentScope) (granted : Bool) : TripRow :=
  if scope.tracks then { trip with trackingEnabled := granted } else trip

def notified (trip : TripRow) (decision : EventDecision) (now : Instant) : TripRow :=
  { trip with
    state := decision.nextState
    lastNotificationAt := if decision.shouldNotify then some now else trip.lastNotificationAt }

def updateLocation (trip : TripRow) (offRoute : Bool) (now : Instant) : Except AppError TripRow :=
  if !trip.underWay then .error ⟨409, "LOCATION_STATE_DENIED", "当前行程状态不允许持续定位"⟩
  else if offRoute && trip.state ≠ .offRoute then
    .ok (trip.notified (evaluateTripEvent trip.state .userOffRoute {} trip.lastNotificationAt
      trip.reminderCooldownMinutes now) now)
  else .ok trip

def ingestEvent (trip : TripRow) (type : TripEventType) (payload : TripEventPayload)
    (now : Instant) : TripRow :=
  let decision := evaluateTripEvent trip.state type payload trip.lastNotificationAt
    trip.reminderCooldownMinutes now
  { trip.notified decision now with
    trackingEnabled := if ended decision.nextState then false else trip.trackingEnabled }

/-- A trip on the version before follows an accepted patch. -/
def acceptPatch (trip : TripRow) (version : Nat) : TripRow :=
  { trip with
    currentPlanVersion := version
    state := if trip.state = .replanning then .activeTrip else trip.state }

/-- The writes of `create_pending_replan`. -/
def replan (trip : TripRow) : Replanned → TripRow
  | .created .. => { trip with state := .replanning }
  | .noFeasibleReplan .. => { trip with state := .atRisk }
  | .stillFeasible .. => { trip with state := .activeTrip }
  | .budgetExceeded => trip
  | .deduplicated .. => trip

/-- The write of a review that blocks a patch. -/
def block (trip : TripRow) : TripRow := { trip with state := .atRisk }

/-- `UPDATE` of the columns that a session has changed since it loaded them. -/
def flush (stored loaded new : TripRow) : TripRow where
  state := if new.state = loaded.state then stored.state else new.state
  currentPlanVersion :=
    if new.currentPlanVersion = loaded.currentPlanVersion then stored.currentPlanVersion
    else new.currentPlanVersion
  trackingEnabled :=
    if new.trackingEnabled = loaded.trackingEnabled then stored.trackingEnabled
    else new.trackingEnabled
  reminderCooldownMinutes := stored.reminderCooldownMinutes
  lastNotificationAt :=
    if new.lastNotificationAt = loaded.lastNotificationAt then stored.lastNotificationAt
    else new.lastNotificationAt

end TripRow

def TripRequest.handle : TripRequest → TripRow → Except AppError TripRow
  | .transition target, trip => trip.transition target
  | .setConsent scope granted, trip => .ok (trip.setConsent scope granted)
  | .updateLocation offRoute now, trip => trip.updateLocation offRoute now
  | .ingestEvent type payload now, trip => .ok (trip.ingestEvent type payload now)
  | .deleteTripLocations, trip => .ok { trip with trackingEnabled := false }
  | .acceptPatch version, trip =>
      .ok (if trip.currentPlanVersion + 1 = version then trip.acceptPatch version else trip)

/-- The commits of a replanning workflow, with the outcome of the step behind each. -/
inductive WorkflowStep where
  | replan (result : Replanned)
  | block
  | applyPatch (version : Nat)

/-- An automatic application selects its trip by the stored version. -/
def WorkflowStep.handle (stored trip : TripRow) : WorkflowStep → TripRow
  | .replan result => trip.replan result
  | .block => trip.block
  | .applyPatch version =>
      if stored.currentPlanVersion + 1 = version then trip.acceptPatch version else trip

inductive SessionWork where
  | request (request : TripRequest)
  | workflow
  | closed

/-- A database session with the trip as it holds it. -/
structure DbSession where
  tripId : Nat
  work : SessionWork
  trip : TripRow

structure TripStore where
  trips : Nat → Option TripRow := fun _ => none
  sessions : List DbSession := []

inductive TripAction where
  | createTrip (tripId reminderCooldownMinutes planVersion : Nat)
  | read (tripId : Nat) (request : TripRequest)
  | commit (index : Nat)
  | startWorkflow (tripId : Nat)
  | proceed (index : Nat) (step : WorkflowStep)
  | close (index : Nat)

namespace TripStore

def update (s : TripStore) (index : Nat) (session : DbSession) (stored new : TripRow)
    (work : SessionWork) : TripStore where
  trips := Function.update s.trips session.tripId (some (stored.flush session.trip new))
  sessions := s.sessions.set index { session with trip := new, work := work }

/-- The session at an index with the row of its trip. -/
def session (s : TripStore) (index : Nat) : Option (DbSession × TripRow) :=
  (s.sessions[index]?).bind fun session =>
    (s.trips session.tripId).map fun stored => (session, stored)

def close (s : TripStore) (index : Nat) : TripStore :=
  { s with sessions := s.sessions.modify index fun session => { session with work := .closed } }

end TripStore

/-- All trips under any number of requests and workflows. -/
def tripMachine : Machine TripStore TripAction where
  initial s := s = {}
  step s
    | .createTrip tripId cooldown version =>
        if (s.trips tripId).isSome then none
        else
          let trip : TripRow := { currentPlanVersion := version, reminderCooldownMinutes := cooldown }
          some { s with trips := Function.update s.trips tripId (some trip) }
    | .read tripId request => (s.trips tripId).map fun trip =>
        { s with sessions := s.sessions ++ [⟨tripId, .request request, trip⟩] }
    | .commit index => (s.session index).bind fun (session, stored) =>
        match session.work with
        | .request request =>
            match request.handle session.trip with
            | .error _ => some (s.close index)
            | .ok new => some (s.update index session stored new .closed)
        | _ => none
    | .startWorkflow tripId => (s.trips tripId).bind fun trip =>
        if trip.underWay then
          some { s with sessions := s.sessions ++ [⟨tripId, .workflow, trip⟩] }
        else none
    | .proceed index step => (s.session index).bind fun (session, stored) =>
        match session.work with
        | .workflow =>
            some (s.update index session stored (step.handle stored session.trip) .workflow)
        | _ => none
    | .close index => if index < s.sessions.length then some (s.close index) else none

/-- The request writes neither the state nor the tracking flag, or only turns tracking off. -/
def TripRequest.harmless : TripRequest → TripRow → Bool
  | .transition _, _ => false
  | .setConsent scope granted, _ => !(scope.tracks && granted)
  | .updateLocation offRoute _, _ => !offRoute
  | .ingestEvent type payload _, _ => (eventTarget type payload).isNone
  | .deleteTripLocations, _ => true
  | .acceptPatch _, trip => trip.state ≠ .replanning

/-- The request keeps to the state machine from the state it has read. -/
def TripRequest.suits : TripRequest → TripRow → Bool
  | .setConsent scope granted, trip => !(scope.tracks && granted && ended trip.state)
  | .updateLocation offRoute _, trip => !offRoute || trip.state ∉ [.atRisk, .replanning]
  | .ingestEvent type payload _, trip => eventSuits type payload trip.state
  | _, _ => true

def WorkflowStep.harmless : WorkflowStep → TripRow → Bool
  | .replan (.budgetExceeded), _ => true
  | .replan (.deduplicated ..), _ => true
  | .replan _, _ => false
  | .block, _ => false
  | .applyPatch _, trip => trip.state ≠ .replanning

def WorkflowStep.suits : WorkflowStep → TripRow → Bool
  | .replan (.created ..), trip => trip.state ≠ .activeTrip
  | .replan (.noFeasibleReplan ..), trip => trip.state ≠ .offRoute
  | .block, trip => trip.state ≠ .offRoute
  | _, _ => true

/-- No other session has moved the trip since this one read it. -/
def TripRow.unmoved (stored loaded : TripRow) : Bool :=
  stored.state = loaded.state && stored.trackingEnabled = loaded.trackingEnabled

/-- A write that touches state or tracking is made on the row as it was read, in a state that
suits it. -/
def keepsMachine (s : TripStore) : TripAction → Bool
  | .commit index => match s.session index with
    | some (session, stored) => match session.work with
      | .request request => request.harmless session.trip ||
          (stored.unmoved session.trip && request.suits session.trip)
      | _ => true
    | none => true
  | .proceed index step => match s.session index with
    | some (session, stored) => step.harmless session.trip ||
        (stored.unmoved session.trip && step.suits session.trip)
    | none => true
  | _ => true

/-- What one write may do to a trip: a move of the machine, and tracking stays off after the end. -/
structure Lawful (old new : TripRow) : Prop where
  moves : Moves old.state new.state
  untracked : ended new.state = true → new.trackingEnabled = false

namespace TripRow
variable {stored loaded new : TripRow}

theorem flush_state (same : new.state = loaded.state) :
    (stored.flush loaded new).state = stored.state := if_pos same

theorem flush_tracking_le (off : new.trackingEnabled = true → loaded.trackingEnabled = true) :
    (stored.flush loaded new).trackingEnabled = true → stored.trackingEnabled = true := by
  simp only [flush]
  split
  · exact id
  · rename_i changed
    intro on
    exact absurd (on.trans (off on).symm) changed

/-- On an unmoved row the columns become those of the session. -/
theorem flush_unmoved (unmoved : stored.unmoved loaded = true) :
    (stored.flush loaded new).state = new.state ∧
      (stored.flush loaded new).trackingEnabled = new.trackingEnabled := by
  simp only [TripRow.unmoved, Bool.and_eq_true, decide_eq_true_eq] at unmoved
  obtain ⟨state, tracking⟩ := unmoved
  constructor
  · simp only [flush]
    split
    · rename_i same
      exact state.trans same.symm
    · rfl
  · simp only [flush]
    split
    · rename_i same
      exact tracking.trans same.symm
    · rfl

end TripRow

theorem ended_iff {state : TripState} : ended state = true ↔ allowedTransitions state = [] := by
  cases state <;> decide

theorem validateTransition_ok {current target : TripState}
    (valid : validateTransition current target = .ok ()) : target ∈ allowedTransitions current := by
  unfold validateTransition at valid
  split at valid
  · assumption
  · contradiction

/-- A harmless request leaves the state alone and turns tracking at most off. -/
theorem handle_harmless {request : TripRequest} {trip new : TripRow}
    (harmless : request.harmless trip = true) (handled : request.handle trip = .ok new) :
    new.state = trip.state ∧ (new.trackingEnabled = true → trip.trackingEnabled = true) := by
  cases request with
  | transition target => contradiction
  | setConsent scope granted =>
      cases handled
      by_cases tracks : scope.tracks = true
      · have denied : granted = false := by simpa [TripRequest.harmless, tracks] using harmless
        simp [TripRow.setConsent, tracks, denied]
      · simp [TripRow.setConsent, tracks]
  | updateLocation offRoute now =>
      simp only [TripRequest.harmless, Bool.not_eq_true'] at harmless
      subst harmless
      simp only [TripRequest.handle, TripRow.updateLocation, Bool.false_and] at handled
      split at handled
      · contradiction
      · cases handled
        exact ⟨rfl, id⟩
  | ingestEvent type payload now =>
      cases handled
      have still : eventTarget type payload = none := by simpa [TripRequest.harmless] using harmless
      simp [TripRow.ingestEvent, TripRow.notified, nextState_eq, still]
  | deleteTripLocations =>
      cases handled
      exact ⟨rfl, fun on => absurd on Bool.false_ne_true⟩
  | acceptPatch version =>
      have calm : trip.state ≠ .replanning := by simpa [TripRequest.harmless] using harmless
      cases handled
      split <;> simp [TripRow.acceptPatch, calm]

/-- A request that suits its trip writes what the machine allows. -/
theorem handle_lawful {request : TripRequest} {trip new : TripRow}
    (suits : request.suits trip = true)
    (untracked : ended trip.state = true → trip.trackingEnabled = false)
    (handled : request.handle trip = .ok new) : Lawful trip new := by
  cases request with
  | transition target =>
      simp only [TripRequest.handle, TripRow.transition] at handled
      cases valid : validateTransition trip.state target with
      | error error => simp [valid, bind, Except.bind] at handled
      | ok _ =>
          simp only [valid, bind, Except.bind, pure, Except.pure, Except.ok.injEq] at handled
          subst handled
          exact ⟨.inr (validateTransition_ok valid), fun past => by simp [past]⟩
  | setConsent scope granted =>
      cases handled
      refine ⟨.inl (by unfold TripRow.setConsent; split <;> rfl), fun past => ?_⟩
      by_cases tracks : scope.tracks = true
      · have live : ended trip.state = true := by simpa [TripRow.setConsent, tracks] using past
        have denied : granted = false := by simpa [TripRequest.suits, tracks, live] using suits
        simp [TripRow.setConsent, tracks, denied]
      · simp only [TripRow.setConsent, if_neg tracks] at past ⊢
        exact untracked past
  | updateLocation offRoute now =>
      simp only [TripRequest.handle, TripRow.updateLocation] at handled
      split at handled
      · contradiction
      · rename_i under
        split at handled
        · rename_i off
          cases handled
          simp only [Bool.and_eq_true, decide_eq_true_eq] at off
          have calm : trip.state ∉ [.atRisk, .replanning] := by
            simpa [TripRequest.suits, off.1] using suits
          refine ⟨.inr ?_, fun past => by simp [TripRow.notified, eventOutcome, ended] at past⟩
          simp only [Bool.not_eq_true, Bool.not_eq_false', TripRow.underWay, decide_eq_true_eq,
            List.mem_cons, List.not_mem_nil, or_false, not_or] at under calm
          have active : trip.state = .activeTrip := by tauto
          simp [active, allowedTransitions, TripRow.notified, eventOutcome]
        · cases handled
          exact ⟨.inl rfl, untracked⟩
  | ingestEvent type payload now =>
      cases handled
      exact ⟨eventSuits_iff.mp suits, fun past => if_pos past⟩
  | deleteTripLocations =>
      cases handled
      exact ⟨.inl rfl, fun _ => rfl⟩
  | acceptPatch version =>
      cases handled
      split
      · by_cases replanning : trip.state = .replanning
        · refine ⟨.inr ?_, fun past => ?_⟩
          · simp [TripRow.acceptPatch, replanning, allowedTransitions]
          · simp [TripRow.acceptPatch, replanning, ended] at past
        · refine ⟨.inl ?_, fun past => ?_⟩
          · simp [TripRow.acceptPatch, replanning]
          · simp only [TripRow.acceptPatch, if_neg replanning] at past ⊢
            exact untracked past
      · exact ⟨.inl rfl, untracked⟩

theorem proceed_harmless {step : WorkflowStep} {stored trip : TripRow}
    (harmless : step.harmless trip = true) :
    (step.handle stored trip).state = trip.state ∧
      ((step.handle stored trip).trackingEnabled = true → trip.trackingEnabled = true) := by
  cases step with
  | replan result => cases result <;> first | exact ⟨rfl, id⟩ | contradiction
  | block => contradiction
  | applyPatch version =>
      have calm : trip.state ≠ .replanning := by simpa [WorkflowStep.harmless] using harmless
      simp only [WorkflowStep.handle]
      split <;> simp [TripRow.acceptPatch, calm]

/-- The states of a workflow's trip: no step leaves them. -/
theorem underWay_iff {trip : TripRow} : trip.underWay = true ↔
    trip.state = .activeTrip ∨ trip.state = .offRoute ∨ trip.state = .atRisk ∨
      trip.state = .replanning := by
  simp [TripRow.underWay]

theorem proceed_underWay {step : WorkflowStep} {stored trip : TripRow} (under : trip.underWay = true) :
    (step.handle stored trip).underWay = true := by
  cases step with
  | replan result => cases result <;> first | exact under | rfl
  | block => rfl
  | applyPatch version =>
      simp only [WorkflowStep.handle]
      split
      · by_cases replanning : trip.state = .replanning
        · simp [TripRow.acceptPatch, replanning, TripRow.underWay]
        · simpa [TripRow.acceptPatch, replanning, TripRow.underWay] using under
      · exact under

theorem not_ended_of_underWay {trip : TripRow} (under : trip.underWay = true) :
    ended trip.state = false := by
  rcases underWay_iff.mp under with state | state | state | state <;> rw [state] <;> rfl

theorem proceed_lawful {step : WorkflowStep} {stored trip : TripRow} (suits : step.suits trip = true)
    (under : trip.underWay = true) : Lawful trip (step.handle stored trip) where
  moves := by
    rcases underWay_iff.mp under with state | state | state | state
    all_goals
      cases step with
      | replan result =>
          cases result <;>
            simp_all [WorkflowStep.handle, TripRow.replan, WorkflowStep.suits, Moves,
              allowedTransitions]
      | block => simp_all [WorkflowStep.handle, TripRow.block, WorkflowStep.suits, Moves, allowedTransitions]
      | applyPatch version =>
          simp only [WorkflowStep.handle]
          split <;> simp_all [TripRow.acceptPatch, Moves, allowedTransitions]
  untracked past := by
    rw [not_ended_of_underWay (proceed_underWay under)] at past
    contradiction

/-- Every ended trip is untracked, and workflows hold trips that are under way. A session that has
read a trip knows it as it was, so its copy is untracked as well when it had ended. -/
structure TripStore.Sound (s : TripStore) : Prop where
  trips : ∀ id trip, s.trips id = some trip → ended trip.state = true → trip.trackingEnabled = false
  copies : ∀ session ∈ s.sessions,
    ended session.trip.state = true → session.trip.trackingEnabled = false
  workflows : ∀ session ∈ s.sessions, session.work = .workflow → session.trip.underWay = true

/-- What a step that keeps the condition does to the trips. -/
def TripStore.Advances (s t : TripStore) : Prop :=
  ∀ id trip, s.trips id = some trip → ∃ new, t.trips id = some new ∧
    Moves trip.state new.state ∧ (ended new.state = true → new.trackingEnabled = false)

/-- A write of the session keeps its row lawful: it is harmless, or made on the row as it was read. -/
theorem flush_lawful {stored loaded new : TripRow}
    (untracked : ended stored.state = true → stored.trackingEnabled = false)
    (kept : (new.state = loaded.state ∧ (new.trackingEnabled = true → loaded.trackingEnabled = true)) ∨
      (stored.unmoved loaded = true ∧ Lawful loaded new)) :
    Lawful stored (stored.flush loaded new) := by
  rcases kept with ⟨same, off⟩ | ⟨unmoved, lawful⟩
  · have state : (stored.flush loaded new).state = stored.state := TripRow.flush_state same
    refine ⟨.inl state, fun past => ?_⟩
    rw [state] at past
    by_contra on
    exact Bool.false_ne_true ((untracked past).symm.trans
      (TripRow.flush_tracking_le off (Bool.of_not_eq_false on)))
  · obtain ⟨state, tracking⟩ : (stored.flush loaded new).state = new.state ∧
        (stored.flush loaded new).trackingEnabled = new.trackingEnabled := TripRow.flush_unmoved unmoved
    simp only [TripRow.unmoved, Bool.and_eq_true, decide_eq_true_eq] at unmoved
    refine ⟨?_, fun past => ?_⟩
    · rw [state, unmoved.1]
      exact lawful.moves
    · rw [tracking]
      exact lawful.untracked (state ▸ past)

namespace TripStore
variable {s t : TripStore} {index : Nat} {session : DbSession} {stored new : TripRow}

theorem session_some (found : s.session index = some (session, stored)) :
    session ∈ s.sessions ∧ s.trips session.tripId = some stored := by
  obtain ⟨_, present, held⟩ := Option.bind_eq_some_iff.mp found
  obtain ⟨_, row, same⟩ := Option.map_eq_some_iff.mp held
  cases same
  exact ⟨List.mem_of_getElem? present, row⟩

theorem Advances.refl (sound : s.Sound) : s.Advances s :=
  fun id trip row => ⟨trip, row, .inl rfl, sound.trips id trip row⟩

theorem Sound.update (sound : s.Sound) (found : s.session index = some (session, stored))
    {work : SessionWork} (lawful : Lawful stored (stored.flush session.trip new))
    (copy : ended new.state = true → new.trackingEnabled = false)
    (under : work = .workflow → new.underWay = true) :
    (s.update index session stored new work).Sound ∧
      s.Advances (s.update index session stored new work) := by
  obtain ⟨-, row⟩ := session_some found
  refine ⟨⟨?_, ?_, ?_⟩, ?_⟩
  · intro id trip present
    by_cases same : id = session.tripId
    · subst same
      simp only [TripStore.update, Function.update_self, Option.some.injEq] at present
      exact present ▸ lawful.untracked
    · simp only [TripStore.update, Function.update_of_ne same] at present
      exact sound.trips id trip present
  · intro other member
    rcases List.mem_or_eq_of_mem_set member with before | rfl
    · exact sound.copies other before
    · exact copy
  · intro other member
    rcases List.mem_or_eq_of_mem_set member with before | rfl
    · exact sound.workflows other before
    · exact under
  · intro id trip present
    by_cases same : id = session.tripId
    · subst same
      cases row.symm.trans present
      exact ⟨_, Function.update_self .., lawful.moves, lawful.untracked⟩
    · exact ⟨trip, (Function.update_of_ne same ..).trans present, .inl rfl, sound.trips id trip present⟩

theorem Sound.close (sound : s.Sound) (index : Nat) :
    (s.close index).Sound ∧ s.Advances (s.close index) := by
  refine ⟨⟨sound.trips, ?_, ?_⟩, Advances.refl sound⟩
  · intro other member
    obtain ⟨i, inside, rfl⟩ := List.getElem_of_mem member
    simp only [TripStore.close, List.getElem_modify]
    simp only [TripStore.close, List.length_modify] at inside
    split
    · exact sound.copies s.sessions[i] (List.getElem_mem inside)
    · exact sound.copies s.sessions[i] (List.getElem_mem inside)
  · intro other member kept
    obtain ⟨i, inside, rfl⟩ := List.getElem_of_mem member
    simp only [TripStore.close, List.getElem_modify] at kept ⊢
    simp only [TripStore.close, List.length_modify] at inside
    split at kept
    · contradiction
    · rename_i other
      rw [if_neg other]
      exact sound.workflows _ (List.getElem_mem inside) kept

/-- A new session reads its trip as it is stored. -/
theorem Sound.read (sound : s.Sound) {tripId : Nat} {trip : TripRow} {work : SessionWork}
    (row : s.trips tripId = some trip) (under : work = .workflow → trip.underWay = true) :
    TripStore.Sound { s with sessions := s.sessions ++ [⟨tripId, work, trip⟩] } where
  trips := sound.trips
  copies session member := by
    rcases List.mem_append.mp member with before | last
    · exact sound.copies session before
    · rw [List.mem_singleton.mp last]
      exact sound.trips tripId trip row
  workflows session member := by
    rcases List.mem_append.mp member with before | last
    · exact sound.workflows session before
    · rw [List.mem_singleton.mp last]
      exact under

/-- A step that keeps the condition advances every trip by the state machine. -/
theorem Sound.step (sound : s.Sound) {action : TripAction} (met : keepsMachine s action = true)
    (stepped : tripMachine.step s action = some t) : t.Sound ∧ s.Advances t := by
  cases action with
  | createTrip tripId cooldown version =>
      simp only [tripMachine, Option.ite_none_left_eq_some, Option.some.injEq] at stepped
      obtain ⟨fresh, rfl⟩ := stepped
      refine ⟨⟨?_, sound.copies, sound.workflows⟩, ?_⟩
      · intro id trip present past
        by_cases same : id = tripId
        · subst same
          simp only [Function.update_self, Option.some.injEq] at present
          exact present ▸ rfl
        · simp only [Function.update_of_ne same] at present
          exact sound.trips id trip present past
      · intro id trip present
        have apart : id ≠ tripId := by
          rintro rfl
          exact fresh (present ▸ rfl)
        exact ⟨trip, (Function.update_of_ne apart ..).trans present, .inl rfl,
          sound.trips id trip present⟩
  | read tripId request =>
      obtain ⟨trip, row, rfl⟩ := Option.map_eq_some_iff.mp stepped
      exact ⟨sound.read row (fun kept => nomatch kept), Advances.refl sound⟩
  | commit index =>
      obtain ⟨⟨session, stored⟩, found, stepped⟩ := Option.bind_eq_some_iff.mp stepped
      obtain ⟨member, row⟩ := session_some found
      simp only at stepped
      split at stepped
      · rename_i request work
        simp only [keepsMachine, found, work, Bool.or_eq_true, Bool.and_eq_true] at met
        split at stepped
        · cases stepped
          exact sound.close index
        · rename_i new handled
          cases stepped
          have copies := sound.copies session member
          refine sound.update found (flush_lawful (sound.trips _ _ row) ?_) ?_ (fun kept => nomatch kept)
          · rcases met with harmless | ⟨unmoved, suits⟩
            · exact .inl (handle_harmless harmless handled)
            · exact .inr ⟨unmoved, handle_lawful suits copies handled⟩
          · intro past
            rcases met with harmless | ⟨-, suits⟩
            · obtain ⟨state, off⟩ := handle_harmless harmless handled
              by_contra on
              exact Bool.false_ne_true ((copies (state ▸ past)).symm.trans
                (off (Bool.of_not_eq_false on)))
            · exact (handle_lawful suits copies handled).untracked past
      · contradiction
  | startWorkflow tripId =>
      obtain ⟨trip, row, stepped⟩ := Option.bind_eq_some_iff.mp stepped
      split at stepped
      · rename_i under
        cases stepped
        exact ⟨sound.read row fun _ => under, Advances.refl sound⟩
      · contradiction
  | proceed index step =>
      obtain ⟨⟨session, stored⟩, found, stepped⟩ := Option.bind_eq_some_iff.mp stepped
      obtain ⟨member, row⟩ := session_some found
      simp only at stepped
      split at stepped
      · rename_i work
        cases stepped
        simp only [keepsMachine, found, Bool.or_eq_true, Bool.and_eq_true] at met
        have under := sound.workflows session member work
        have still : (step.handle stored session.trip).underWay = true := proceed_underWay under
        refine sound.update found (flush_lawful (sound.trips _ _ row) ?_) ?_ fun _ => still
        · rcases met with harmless | ⟨unmoved, suits⟩
          · exact .inl (proceed_harmless harmless)
          · exact .inr ⟨unmoved, proceed_lawful suits under⟩
        · intro past
          rw [not_ended_of_underWay still] at past
          contradiction
      · contradiction
  | close index =>
      simp only [tripMachine, Option.ite_none_right_eq_some, Option.some.injEq] at stepped
      obtain ⟨-, rfl⟩ := stepped
      exact sound.close index

theorem sound_of_reachable
    (reached : (tripMachine.restrict fun s a => keepsMachine s a = true).Reachable s) : s.Sound := by
  refine Machine.Reachable.invariant (P := Sound) ?_ ?_ reached
  · rintro s rfl
    exact ⟨by simp, by simp, by simp⟩
  · intro s action t sound stepped
    obtain ⟨met, stepped⟩ := Machine.restrict_step.mp stepped
    exact (sound.step met stepped).1

/-- A trip that has ended keeps its state in every later state of the run. -/
theorem ended_stays (sound : s.Sound)
    (path : (tripMachine.restrict fun s a => keepsMachine s a = true).Reaches s t) {id : Nat}
    {trip : TripRow} (row : s.trips id = some trip) (past : ended trip.state = true) :
    t.Sound ∧ ∃ new, t.trips id = some new ∧ new.state = trip.state ∧
      new.trackingEnabled = false := by
  induction path with
  | refl => exact ⟨sound, trip, row, rfl, sound.trips id trip row past⟩
  | next path last ih =>
      obtain ⟨middle, kept, held, state, -⟩ := ih
      obtain ⟨met, stepped⟩ := Machine.restrict_step.mp last
      obtain ⟨later, advances⟩ := middle.step met stepped
      obtain ⟨new, held', moves, untracked⟩ := advances id kept held
      have same : new.state = trip.state := by
        rcases moves with same | allowed
        · exact same.trans state
        · rw [state, ended_iff.mp past] at allowed
          contradiction
      exact ⟨later, new, held', same, untracked (same ▸ past)⟩

end TripStore

/-- In a run that keeps the condition every trip moves by the allowed transitions, and the ends of
the machine are never left and never tracked. -/
theorem trip_state_machine {s : TripStore}
    (reached : (tripMachine.restrict fun s a => keepsMachine s a = true).Reachable s) :
    (∀ action t, (tripMachine.restrict fun s a => keepsMachine s a = true).step s action = some t →
      ∀ id trip, s.trips id = some trip → ∃ new, t.trips id = some new ∧
        (new.state ≠ trip.state → new.state ∈ allowedTransitions trip.state)) ∧
    ∀ t, (tripMachine.restrict fun s a => keepsMachine s a = true).Reaches s t →
      ∀ id trip, s.trips id = some trip → ended trip.state = true → ∃ new, t.trips id = some new ∧
        new.state = trip.state ∧ new.trackingEnabled = false := by
  have sound := TripStore.sound_of_reachable reached
  constructor
  · intro action t stepped id trip row
    obtain ⟨met, stepped⟩ := Machine.restrict_step.mp stepped
    obtain ⟨new, row', moves, -⟩ := (sound.step met stepped).2 id trip row
    exact ⟨new, row', moves.resolve_left⟩
  · intro t path id trip row past
    exact (TripStore.ended_stays sound path row past).2

/-- A trip that is started, completed and then resumed by a late event. -/
def resumedAfterEnd : List TripAction :=
  [.createTrip 1 15 1, .read 1 (.transition .activeTrip), .commit 0,
    .read 1 (.setConsent .preciseLocation true), .commit 1,
    .read 1 (.ingestEvent .tripCompleted {} 10), .commit 2,
    .read 1 (.ingestEvent .userResumed {} 20), .commit 3]

theorem trip_state_machine_completed : ∃ s : TripStore,
    tripMachine.run {} (resumedAfterEnd.take 7) = some s ∧
      (s.trips 1).map TripRow.state = some .completed ∧
      ∀ t, (tripMachine.restrict fun s a => keepsMachine s a = true).Reaches s t →
        (t.trips 1).map TripRow.state = some .completed := by
  have ran : ∃ s, tripMachine.run {} (resumedAfterEnd.take 7) = some s ∧
      (s.trips 1).map TripRow.state = some .completed := by decide +kernel
  obtain ⟨s, ran, state⟩ := ran
  have met : tripMachine.along keepsMachine {} (resumedAfterEnd.take 7) = true := by decide +kernel
  have reached := Machine.reachable_restrict_of_run _ rfl ran (Machine.meetsAlong_of_along met)
  refine ⟨s, ran, state, fun t path => ?_⟩
  obtain ⟨trip, row, completed⟩ := Option.map_eq_some_iff.mp state
  obtain ⟨new, row', same, -⟩ :=
    (trip_state_machine reached).2 t path 1 trip row (by rw [completed]; rfl)
  rw [row', Option.map_some, same, completed]

/-- The late event leaves `COMPLETED`. -/
theorem completed_trip_resumes :
    ¬ ∀ s, tripMachine.Reachable s → ∀ action t, tripMachine.step s action = some t →
      ∀ id trip, s.trips id = some trip → ∃ new, t.trips id = some new ∧
        (new.state ≠ trip.state → new.state ∈ allowedTransitions trip.state) := by
  intro lawful
  have ran : ∃ s, tripMachine.run {} (resumedAfterEnd.take 8) = some s ∧
      ((s.trips 1).map TripRow.state = some .completed ∧
        ∃ t, tripMachine.step s (.commit 3) = some t ∧
          (t.trips 1).map TripRow.state = some .activeTrip) := by decide +kernel
  obtain ⟨s, ran, state, t, stepped, resumed⟩ := ran
  obtain ⟨trip, row, completed⟩ := Option.map_eq_some_iff.mp state
  obtain ⟨new, row', moves⟩ :=
    lawful s (Machine.reachable_of_run _ rfl ran) (.commit 3) t stepped 1 trip row
  rw [row', Option.map_some, Option.some.injEq] at resumed
  rw [resumed, completed] at moves
  exact absurd (moves (by decide)) (by decide)

end MapGo.Companion
