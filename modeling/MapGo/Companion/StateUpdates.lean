import MapGo.Companion.TripState
import MapGo.Shared.Protocol

/-! The companion's own updates of the shared state of its trip. A run initializes the state, works on
the trip as its session holds it, and at its end records what has happened; other runs, requests and
the loss of states come in between. -/
namespace MapGo.Companion

open Transition MapGo.Patch MapGo.Runtime MapGo.Shared

/-- `f"trip-{trip.id}-state"` -/
def tripTask (tripId : Nat) : String := "trip-" ++ toString tripId ++ "-state"

/-- The action of a run's update. -/
def updateAction (trip : TripState) (phase : SharedPhase) : String :=
  if trip = .completed then "trip_completed"
  else if phase = .planReady ∨ phase = .finalized then "trip_started"
  else "trip_event_processed"

/-- How far a run has come; `denied` holds the error that its own update has raised. -/
inductive RunStage (V : Type) where
  | initializing (call : SharedCall V)
  | working (revision : Nat)
  | updating (call : SharedCall V)
  | recorded
  | denied (error : SharedStateError)
  | closed

/-- A companion run with the trip as its session holds it. -/
structure CompanionRun (V : Type) where
  tripId : Nat
  trip : TripRow
  stage : RunStage V

structure CompanionRuns (V : Type) where
  trips : TripStore := {}
  now : Nat := 0
  /-- The runtime store, as far as the trips' states go. -/
  store : ValueStore (SharedState V) := {}
  runs : List (CompanionRun V) := []

inductive CompanionAction (V : Type) where
  | trip (action : TripAction)
  | wait (seconds : Nat)
  /-- A state expires, is evicted, or is erased with the user's data. -/
  | lose (tripId : Nat)
  /-- A worker loads the trip and the snapshot of its plan. -/
  | begin (tripId : Nat) (routePlan : Option V)
  /-- The next step of the call that a run is making. -/
  | advance (index : Nat)
  /-- A tool of the run replans the trip. -/
  | replan (index : Nat) (step : WorkflowStep)
  /-- The run has ended and chooses the action of its update. -/
  | choose (index : Nat) (executionContext : V)
  /-- What follows the commit. -/
  | finish (index : Nat)
  /-- Anything else raises. -/
  | abort (index : Nat)

namespace CompanionRuns
variable {V : Type}

def setRun (s : CompanionRuns V) (index : Nat) (run : CompanionRun V) : CompanionRuns V :=
  { s with runs := s.runs.set index run }

/-- The stage of a run whose initialization has come to a phase. -/
def initialized (call : SharedCall V) : RunStage V :=
  match call.phase with
  | .returned state => .working state.revision
  | .raised _ => .closed
  | _ => .initializing call

/-- The stage of a run whose update has come to a phase. -/
def updated (call : SharedCall V) : RunStage V :=
  match call.phase with
  | .returned _ => .recorded
  | .raised error => .denied error
  | _ => .updating call

/-- A step of the call in which a run is. -/
def advance (manager : AgentSharedStateManager V) (s : CompanionRuns V) (index : Nat)
    (run : CompanionRun V) : Option (CompanionRuns V) :=
  match run.stage with
  | .initializing call => (manager.advance s.store s.now call).map fun step =>
      { s with store := step.2.1 }.setRun index
        { run with stage := initialized { call with phase := step.1 } }
  | .updating call => (manager.advance s.store s.now call).map fun step =>
      { s with store := step.2.1 }.setRun index
        { run with stage := updated { call with phase := step.1 } }
  | _ => none

/-- The action is chosen by the state as it is read now. -/
def choose (manager : AgentSharedStateManager V) (s : CompanionRuns V) (run : CompanionRun V)
    (revision : Nat) (executionContext : V) : RunStage V :=
  match manager.read s.store (tripTask run.tripId) s.now with
  | .error _ => .closed
  | .ok current => .updating
      { taskId := tripTask run.tripId
        request := .update .companion revision (updateAction run.trip.state current.phase)
          [("execution_context", executionContext)] none
        phase := .begun }

end CompanionRuns

/-- Any number of runs on any trips. -/
def companionMachine {V : Type} (manager : AgentSharedStateManager V) :
    Machine (CompanionRuns V) (CompanionAction V) where
  initial s := s = {}
  step s
    | .trip action => (tripMachine.step s.trips action).map fun trips => { s with trips := trips }
    | .wait seconds => some { s with now := s.now + seconds }
    | .lose tripId => some { s with store := s.store.removeValue (stateKey (tripTask tripId)) }
    | .begin tripId routePlan => (s.trips.trips tripId).map fun trip =>
        { s with runs := s.runs ++ [{
            tripId := tripId
            trip := trip
            stage := .initializing ⟨tripTask tripId, .initialization routePlan, .begun⟩ }] }
    | .advance index => (s.runs[index]?).bind (s.advance manager index)
    | .replan index step => (s.runs[index]?).bind fun run =>
        (s.trips.trips run.tripId).bind fun stored =>
          match run.stage with
          | .working _ =>
              if run.trip.underWay then
                let new := step.handle stored run.trip
                some ({ s with trips := { s.trips with
                  trips := Function.update s.trips.trips run.tripId
                    (some (stored.flush run.trip new)) } }.setRun index { run with trip := new })
              else none
          | _ => none
    | .choose index executionContext => (s.runs[index]?).bind fun run =>
        match run.stage with
        | .working revision => some (s.setRun index
            { run with stage := s.choose manager run revision executionContext })
        | _ => none
    | .finish index => (s.runs[index]?).bind fun run =>
        match run.stage with
        | .recorded => some ({ s with
            store := if run.trip.state = TripState.completed then
                s.store.removeValue (stateKey (tripTask run.tripId))
              else s.store }.setRun index { run with stage := .closed })
        | _ => none
    | .abort index => (s.runs[index]?).map fun run => s.setRun index { run with stage := .closed }

namespace CompanionRuns
variable {V : Type}

/-- No update of a run was denied for its transition. -/
def Legal (s : CompanionRuns V) : Prop :=
  ∀ run ∈ s.runs, ∀ message, run.stage ≠ .denied (.access message)

/-- The phase of a state that still has the revision. -/
def phaseAt (manager : AgentSharedStateManager V) (s : CompanionRuns V) (taskId : String)
    (revision : Int) : Option SharedPhase :=
  match manager.read s.store taskId s.now with
  | .ok current => if (current.revision : Int) = revision then some current.phase else none
  | .error _ => none

/-- What an update finds that begins now: the state of the trip and the phase. -/
def found (manager : AgentSharedStateManager V) (s : CompanionRuns V) (run : CompanionRun V) :
    Option (TripState × SharedPhase) :=
  match run.stage with
  | .updating ⟨taskId, .update _ revision _ _ _, .begun⟩ =>
      (s.phaseAt manager taskId revision).map fun phase => (run.trip.state, phase)
  | _ => none

/-- An update that finds the state of its run finds it under way, or freshly seeded with the plan of
a trip that is not completed. -/
def suited (manager : AgentSharedStateManager V) (s : CompanionRuns V) :
    CompanionAction V → Bool
  | .advance index => ((s.runs[index]?).bind (s.found manager)).all fun (trip, phase) =>
      phase = .inTrip || (phase = .planReady && trip ≠ .completed)
  | _ => true

end CompanionRuns

/-- The phases that a trip's state comes to. -/
def TripPhase (phase : SharedPhase) : Prop :=
  phase = .initialized ∨ phase = .planReady ∨ phase = .inTrip ∨ phase = .completed

section manager
variable {V : Type} {manager : AgentSharedStateManager V} {store : ValueStore (SharedState V)}
  {taskId : String} {now : Nat}

/-- Every stored state is in such a phase. -/
def TripStates (store : ValueStore (SharedState V)) : Prop :=
  ∀ item ∈ store.values, TripPhase item.value.phase

/-- What a call holds is in such a phase. -/
def TripCall : CallPhase V → Prop
  | .creating state | .storing _ state | .returned state => TripPhase state.phase
  | _ => True

theorem verified_phase {codec : StateCodec V} {raw state : SharedState V}
    (verified : codec.verified raw = .ok state) : state.phase = raw.phase := by
  obtain ⟨validated, valid, same⟩ := bind_eq_ok.mp verified
  split at same
  · contradiction
  · cases same
    rw [(StateCodec.validate_ok_iff.mp valid).2.2.2]

theorem TripStates.getJson_value (states : TripStates store) {key : String} {raw : SharedState V}
    (held : (store.getJson key now).1 = some raw) : TripPhase raw.phase := by
  rw [ValueStore.getJson_eq] at held
  obtain ⟨item, found, rfl⟩ := Option.map_eq_some_iff.mp held
  exact states item (List.mem_filter.mp (ValueStore.find_iff.mp found).1).1

theorem TripStates.read (states : TripStates store) {current : SharedState V}
    (found : manager.read store taskId now = .ok current) : TripPhase current.phase := by
  unfold AgentSharedStateManager.read at found
  split at found
  · contradiction
  · rename_i raw held
    rw [verified_phase found]
    exact states.getJson_value held

theorem TripStates.mono {after : ValueStore (SharedState V)} (states : TripStates store)
    (fewer : ∀ key item, after.find key = some item → store.find key = some item) :
    TripStates after := by
  intro item member
  have found := fewer item.key item (ValueStore.find_iff.mpr ⟨member, rfl⟩)
  exact states item (ValueStore.find_iff.mp found).1

theorem TripStates.getJson (states : TripStates store) (key : String) :
    TripStates (store.getJson key now).2 :=
  states.mono fun _ _ found => ValueStore.find_of_getJson found

theorem TripStates.removeValue (states : TripStates store) (key : String) :
    TripStates (store.removeValue key) := by
  intro item member
  exact states item (List.mem_filter.mp member).1

theorem TripStates.compareSet (states : TripStates store) {expected : Int} {state : SharedState V}
    (phase : TripPhase state.phase) :
    TripStates (manager.compareSet store taskId expected state now).2 := by
  intro item member
  obtain before | ⟨rfl, _⟩ :=
    ValueStore.find_of_compareSetJson (ValueStore.find_iff.mpr ⟨member, rfl⟩)
  · exact states item (ValueStore.find_iff.mp before).1
  · exact phase

theorem initialState_phase {routePlan : Option V} {next : SharedState V}
    (initialized : manager.initialState taskId routePlan now = .ok next) : TripPhase next.phase := by
  unfold AgentSharedStateManager.initialState at initialized
  split at initialized
  · contradiction
  · rw [(AgentSharedStateManager.finish_ok initialized).2.2]
    unfold AgentSharedStateManager.firstState TripPhase
    dsimp only
    split
    · exact .inr (.inl rfl)
    · exact .inl rfl

theorem preparePlan_phase {current next : SharedState V} {expected : Int} {plan : V}
    (refreshed : manager.preparePlan current expected plan now = .ok (some next)) :
    next.phase = current.phase := by
  unfold AgentSharedStateManager.preparePlan at refreshed
  split at refreshed
  · contradiction
  · split at refreshed
    · split at refreshed
      · contradiction
      · split at refreshed
        · cases refreshed
        · obtain ⟨updated, finished, same⟩ := bind_eq_ok.mp refreshed
          cases same
          rw [(AgentSharedStateManager.finish_ok finished).2.2]
          rfl
    · contradiction

theorem beginSync_trip (states : TripStates store) {expected : Int} {plan : V} :
    TripCall (manager.beginSync store taskId now expected plan) := by
  unfold AgentSharedStateManager.beginSync
  split
  · trivial
  · split
    · trivial
    · rename_i current found
      split
      · trivial
      · exact states.read found
      · rename_i next refreshed
        change TripPhase next.phase
        rw [preparePlan_phase refreshed]
        exact states.read found

theorem beginInitialize_trip (states : TripStates store) {plan : Option V} :
    TripCall (manager.beginInitialize store taskId now plan) := by
  unfold AgentSharedStateManager.beginInitialize
  split
  · rename_i raw held
    split
    · trivial
    · rename_i state verified
      have phase : TripPhase state.phase := verified_phase verified ▸ states.getJson_value held
      split
      · exact phase
      · split
        · trivial
        · exact phase
  · split
    · trivial
    · rename_i next initialized
      exact initialState_phase initialized

theorem reread_trip (states : TripStates store) : TripCall (manager.reread store taskId now) := by
  unfold AgentSharedStateManager.reread
  split
  · trivial
  · trivial
  · rename_i found
    exact states.read found

/-- A write stores what the call has prepared. -/
theorem write_trip (states : TripStates store) {pending : AgentSharedStateManager.PendingWrite V}
    (phase : TripPhase pending.state.phase) (refused : TripCall pending.refused) :
    TripStates (manager.write store taskId now pending).2.1 ∧
      TripCall (manager.write store taskId now pending).1 := by
  constructor
  · rw [AgentSharedStateManager.write_store]
    exact states.compareSet phase
  · unfold AgentSharedStateManager.write
    dsimp only
    split
    · exact phase
    · exact refused

theorem advance_initialization (states : TripStates store) {plan : Option V} {phase : CallPhase V}
    (holds : TripCall phase) {step : AgentSharedStateManager.Step V}
    (moved : manager.advance store now ⟨taskId, .initialization plan, phase⟩ = some step) :
    TripStates step.2.1 ∧ TripCall step.1 := by
  unfold AgentSharedStateManager.advance at moved
  cases phase with
  | begun =>
      cases moved
      exact ⟨states.getJson _, beginInitialize_trip states⟩
  | syncing expected routePlan =>
      cases moved
      exact ⟨states.getJson _, beginSync_trip states⟩
  | rereading =>
      cases moved
      exact ⟨states.getJson _, reread_trip states⟩
  | creating state =>
      cases moved
      exact write_trip states holds trivial
  | storing expected state =>
      cases moved
      exact write_trip states holds trivial
  | returned => cases moved
  | raised => cases moved

/-- The phase to which an update leads. -/
def updatePhase (trip : TripState) : SharedPhase :=
  if trip = .completed then .completed else .inTrip

theorem actionPhase_updateAction (trip : TripState) (phase : SharedPhase) :
    actionPhase (updateAction trip phase) = some (updatePhase trip) := by
  unfold updateAction updatePhase
  split
  · rfl
  · split <;> rfl

/-- The companion may perform its actions on the execution context. -/
theorem authorize_updateAction (trip : TripState) (phase : SharedPhase) (executionContext : V) :
    AgentSharedStateManager.authorize .companion (updateAction trip phase)
      [("execution_context", executionContext)] = .ok () := by
  unfold updateAction
  split
  · rfl
  · split <;> rfl

/-- The transitions of an update, as far as trips' states go. -/
theorem updatePhase_allowed (trip : TripState) {phase : SharedPhase} (reached : TripPhase phase) :
    updatePhase trip ∈ allowedPhases phase ↔
      phase = .inTrip ∨ (phase = .planReady ∧ trip ≠ .completed) := by
  unfold updatePhase
  obtain rfl | rfl | rfl | rfl := reached <;> by_cases done : trip = .completed <;>
    simp [done, allowedPhases]

/-- A finished payload fails for its size or its fields. -/
theorem finish_error {payload : SharedState V} {message : String} :
    manager.finish payload ≠ .error (.access message) := by
  unfold AgentSharedStateManager.finish AgentSharedStateManager.serialized StateCodec.validate
  intro failed
  split at failed
  · simp only [bind, Except.bind] at failed
    split at failed <;> cases failed
  · cases failed

theorem read_error {message : String} :
    manager.read store taskId now ≠ .error (.access message) := by
  unfold AgentSharedStateManager.read StateCodec.verified StateCodec.validate
  intro failed
  split at failed
  · cases failed
  · split at failed
    · simp only [bind, Except.bind] at failed
      split at failed <;> cases failed
    · cases failed

/-- An update is denied exactly when its transition is not allowed. -/
theorem prepareUpdate_access_iff (current : SharedState V) (expected : Int) (trip : TripState)
    (phase : SharedPhase) (changes : List (String × V)) (messageId : Option String) :
    (∃ message, manager.prepareUpdate current .companion expected (updateAction trip phase) changes
        messageId now = .error (.access message)) ↔
      (current.revision : Int) = expected ∧ updatePhase trip ∉ allowedPhases current.phase := by
  unfold AgentSharedStateManager.prepareUpdate
  rw [actionPhase_updateAction]
  dsimp only
  split
  · rename_i apart
    simp [apart]
  · rename_i same
    split
    · rename_i forbidden
      simp [not_not.mp same, forbidden]
    · rename_i allowed
      simp only [allowed, and_false, iff_false, not_exists]
      exact fun message => finish_error

/-- A prepared update leads to the phase of its action. -/
theorem prepareUpdate_phase {current next : SharedState V} {expected : Int} {trip : TripState}
    {phase : SharedPhase} {changes : List (String × V)} {messageId : Option String}
    (updated : manager.prepareUpdate current .companion expected (updateAction trip phase) changes
      messageId now = .ok next) : next.phase = updatePhase trip := by
  unfold AgentSharedStateManager.prepareUpdate at updated
  rw [actionPhase_updateAction] at updated
  dsimp only at updated
  split at updated
  · contradiction
  · split at updated
    · contradiction
    · rw [(AgentSharedStateManager.finish_ok updated).2.2]

theorem updatePhase_trip (trip : TripState) : TripPhase (updatePhase trip) := by
  unfold updatePhase TripPhase
  split <;> simp

/-- What is known of a stage, with the trip as its session holds it. -/
inductive StageSound (trip : TripState) : RunStage V → Prop
  | initializing {taskId plan phase} (holds : TripCall phase) :
      StageSound trip (.initializing ⟨taskId, .initialization plan, phase⟩)
  | working {revision} : StageSound trip (.working revision)
  | begun {taskId revision phase executionContext} :
      StageSound trip (.updating ⟨taskId, .update .companion revision (updateAction trip phase)
        [("execution_context", executionContext)] none, .begun⟩)
  | storing {taskId revision action changes expected state} (reached : TripPhase state.phase) :
      StageSound trip (.updating ⟨taskId, .update .companion revision action changes none,
        .storing expected state⟩)
  | recorded : StageSound trip .recorded
  | denied {error} : StageSound trip (.denied error)
  | closed : StageSound trip .closed

theorem initialized_sound {trip : TripState} {plan : Option V} {phase : CallPhase V}
    (holds : TripCall phase) :
    StageSound trip (CompanionRuns.initialized ⟨taskId, .initialization plan, phase⟩) := by
  unfold CompanionRuns.initialized
  dsimp only
  split
  · exact .working
  · exact .closed
  · exact .initializing holds

/-- The first step of an update: it is denied for a transition that is not allowed. -/
theorem begin_update {trip : TripState} {phase : SharedPhase}
    {revision : Int} {executionContext : V} {request : SharedRequest V}
    (asked : request = .update .companion revision (updateAction trip phase)
      [("execution_context", executionContext)] none) :
    StageSound trip (CompanionRuns.updated ⟨taskId, request,
        manager.beginUpdate store taskId now .companion revision (updateAction trip phase)
          [("execution_context", executionContext)] none⟩) ∧
      ((∃ message, CompanionRuns.updated ⟨taskId, request,
          manager.beginUpdate store taskId now .companion revision (updateAction trip phase)
            [("execution_context", executionContext)] none⟩ = .denied (.access message)) ↔
        ∃ current, manager.read store taskId now = .ok current ∧
          (current.revision : Int) = revision ∧ updatePhase trip ∉ allowedPhases current.phase) := by
  subst asked
  unfold AgentSharedStateManager.beginUpdate
  rw [authorize_updateAction]
  dsimp only
  cases found : manager.read store taskId now with
  | error error =>
      refine ⟨.denied, ?_⟩
      constructor
      · rintro ⟨message, same⟩
        obtain rfl := RunStage.denied.inj same
        exact absurd found read_error
      · rintro ⟨current, impossible, _⟩
        cases impossible
  | ok current =>
      have access := @prepareUpdate_access_iff V manager now current revision trip phase
        [("execution_context", executionContext)] none
      dsimp only
      cases prepared : manager.prepareUpdate current .companion revision (updateAction trip phase)
          [("execution_context", executionContext)] none now with
      | error error =>
          rw [prepared] at access
          refine ⟨.denied, ?_⟩
          constructor
          · rintro ⟨message, same⟩
            obtain rfl := RunStage.denied.inj same
            exact ⟨current, rfl, access.mp ⟨message, rfl⟩⟩
          · rintro ⟨_, same, denied⟩
            obtain rfl := Except.ok.inj same
            obtain ⟨message, same⟩ := access.mpr denied
            exact ⟨message, congrArg RunStage.denied (Except.error.inj same)⟩
      | ok next =>
          rw [prepared] at access
          refine ⟨.storing (prepareUpdate_phase prepared ▸ updatePhase_trip trip), ?_⟩
          constructor
          · rintro ⟨message, same⟩
            cases same
          · rintro ⟨_, same, denied⟩
            obtain rfl := Except.ok.inj same
            obtain ⟨message, impossible⟩ := access.mpr denied
            cases impossible

end manager

namespace CompanionRuns
variable {V : Type} {manager : AgentSharedStateManager V} {s t : CompanionRuns V}
  {index : Nat} {run : CompanionRun V}

/-- The invariant of the machine. -/
structure Sound (s : CompanionRuns V) : Prop where
  states : TripStates s.store
  stages : ∀ run ∈ s.runs, StageSound run.trip.state run.stage

/-- One run changes, perhaps with the store. -/
theorem Sound.setRun (sound : s.Sound) {store : ValueStore (SharedState V)}
    (states : TripStates store) (stage : StageSound run.trip.state run.stage) :
    ({ s with store := store }.setRun index run).Sound where
  states := states
  stages := by
    intro other member
    obtain before | rfl := List.mem_or_eq_of_mem_set member
    · exact sound.stages other before
    · exact stage

/-- Only the changed run can be denied anew. -/
theorem legal_setRun (legal : s.Legal) (store : ValueStore (SharedState V))
    (inside : index < s.runs.length) :
    ({ s with store := store }.setRun index run).Legal ↔
      ¬ ∃ message, run.stage = .denied (.access message) := by
  constructor
  · rintro after ⟨message, denied⟩
    exact after run (List.mem_set inside run) message denied
  · intro calm other member message denied
    obtain before | rfl := List.mem_or_eq_of_mem_set member
    · exact legal other before message denied
    · exact calm ⟨message, denied⟩

/-- What a step of a call comes to. -/
structure Stepped (manager : AgentSharedStateManager V) (s : CompanionRuns V) (index : Nat)
    (run : CompanionRun V) (t : CompanionRuns V) : Prop where
  moved : ∃ store stage, t = { s with store := store }.setRun index { run with stage := stage } ∧
    TripStates store ∧ StageSound run.trip.state stage ∧
    ((∃ message, stage = .denied (.access message)) ↔ s.suited manager (.advance index) = false)

theorem advance_stepped (sound : s.Sound) (present : s.runs[index]? = some run)
    (moved : s.advance manager index run = some t) : s.Stepped manager index run t := by
  have known := sound.stages run (List.mem_of_getElem? present)
  obtain ⟨tripId, trip, stage⟩ := run
  unfold CompanionRuns.advance at moved
  dsimp only at known moved
  cases known with
  | @initializing taskId plan phase holds =>
      obtain ⟨step, taken, rfl⟩ := Option.map_eq_some_iff.mp moved
      obtain ⟨states, call⟩ := advance_initialization sound.states holds taken
      have calm : s.suited manager (.advance index) = true := by
        simp [suited, found, present]
      refine ⟨_, _, rfl, states, initialized_sound call, ?_⟩
      rw [calm]
      refine iff_of_false ?_ (by decide)
      rintro ⟨message, denied⟩
      unfold CompanionRuns.initialized at denied
      dsimp only at denied
      split at denied <;> cases denied
  | @begun taskId revision phase executionContext =>
      obtain ⟨step, taken, rfl⟩ := Option.map_eq_some_iff.mp moved
      obtain rfl := Option.some.inj taken
      obtain ⟨stage, denied⟩ := @begin_update V manager s.store taskId s.now trip.state phase revision
        executionContext _ rfl
      refine ⟨_, _, rfl, sound.states.getJson _, stage, denied.trans ?_⟩
      have seen : (s.runs[index]?).bind (s.found manager) =
          (s.phaseAt manager taskId revision).map fun phase => (trip.state, phase) := by
        rw [present]
        rfl
      have answer : s.suited manager (.advance index) =
          (s.phaseAt manager taskId revision).all fun phase =>
            phase = .inTrip || (phase = .planReady && trip.state ≠ .completed) := by
        rw [suited, seen, Option.all_map]
      rw [answer, phaseAt]
      cases found : manager.read s.store taskId s.now with
      | error => simp
      | ok current =>
          have phases := updatePhase_allowed trip.state (sound.states.read found)
          by_cases same : (current.revision : Int) = revision
          · simp [same, phases]
          · simp [same]
  | @storing taskId revision action changes expected state reached =>
      obtain ⟨step, taken, rfl⟩ := Option.map_eq_some_iff.mp moved
      obtain rfl := Option.some.inj taken
      have calm : s.suited manager (.advance index) = true := by
        simp [suited, found, present]
      have stored := (@write_trip V manager s.store taskId s.now sound.states
        ⟨expected, state, .raised (.conflict "shared state changed concurrently")⟩ reached trivial).1
      refine ⟨_, _, rfl, stored, ?_⟩
      rw [calm]
      unfold AgentSharedStateManager.write
      dsimp only
      split
      · refine ⟨.recorded, iff_of_false ?_ (by decide)⟩
        rintro ⟨message, denied⟩
        cases denied
      · refine ⟨.denied, iff_of_false ?_ (by decide)⟩
        rintro ⟨message, denied⟩
        cases denied
  | working => cases moved
  | recorded => cases moved
  | denied => cases moved
  | closed => cases moved

theorem Sound.setStage (sound : s.Sound) (stage : StageSound run.trip.state run.stage) :
    (s.setRun index run).Sound :=
  sound.setRun sound.states stage

/-- A run comes to a stage in which it is not denied. -/
theorem legal_of_set (legal : s.Legal) (runs : t.runs = s.runs.set index run)
    (calm : ∀ error, run.stage ≠ .denied error) : t.Legal := by
  intro other member message
  rw [runs] at member
  obtain before | rfl := List.mem_or_eq_of_mem_set member
  · exact legal other before message
  · exact calm _

theorem companion_step (sound : s.Sound) (legal : s.Legal) {action : CompanionAction V}
    (stepped : (companionMachine manager).step s action = some t) :
    t.Sound ∧ (t.Legal ↔ s.suited manager action = true) := by
  cases action with
  | trip action =>
      obtain ⟨trips, _, rfl⟩ := Option.map_eq_some_iff.mp stepped
      exact ⟨⟨sound.states, sound.stages⟩, iff_of_true legal rfl⟩
  | wait seconds =>
      cases stepped
      exact ⟨⟨sound.states, sound.stages⟩, iff_of_true legal rfl⟩
  | lose tripId =>
      cases stepped
      exact ⟨⟨sound.states.removeValue _, sound.stages⟩, iff_of_true legal rfl⟩
  | begin tripId routePlan =>
      obtain ⟨trip, _, rfl⟩ := Option.map_eq_some_iff.mp stepped
      have last (run) (member : run ∈ s.runs ++ [{
          tripId := tripId
          trip := trip
          stage := .initializing ⟨tripTask tripId, .initialization routePlan, .begun⟩ }]) :
          run ∈ s.runs ∨ run = ⟨tripId, trip,
            .initializing ⟨tripTask tripId, .initialization routePlan, .begun⟩⟩ := by
        simpa using member
      refine ⟨⟨sound.states, fun run member => ?_⟩, iff_of_true (fun run member message => ?_) rfl⟩
      · obtain before | rfl := last run member
        · exact sound.stages run before
        · exact .initializing trivial
      · obtain before | rfl := last run member
        · exact legal run before message
        · intro denied
          cases denied
  | advance index =>
      obtain ⟨run, present, moved⟩ := Option.bind_eq_some_iff.mp stepped
      obtain ⟨store, stage, rfl, states, known, denied⟩ :=
        (advance_stepped sound present moved).moved
      refine ⟨sound.setRun states known, ?_⟩
      rw [legal_setRun legal store (List.getElem?_eq_some_iff.mp present).1, denied,
        Bool.not_eq_false]
  | replan index step =>
      obtain ⟨run, present, rest⟩ := Option.bind_eq_some_iff.mp stepped
      obtain ⟨stored, _, rest⟩ := Option.bind_eq_some_iff.mp rest
      split at rest
      · rename_i revision stage
        split at rest
        · cases rest
          refine ⟨⟨sound.states, fun other member => ?_⟩,
            iff_of_true (legal_of_set legal rfl ?_) rfl⟩
          · obtain before | rfl := List.mem_or_eq_of_mem_set member
            · exact sound.stages other before
            · dsimp only
              rw [stage]
              exact .working
          · intro error denied
            cases stage.symm.trans denied
        · contradiction
      · contradiction
  | choose index executionContext =>
      obtain ⟨run, present, rest⟩ := Option.bind_eq_some_iff.mp stepped
      split at rest
      · rename_i revision stage
        cases rest
        have chosen : StageSound run.trip.state
            (s.choose manager run revision executionContext) ∧
              ∀ error, s.choose manager run revision executionContext ≠ .denied error := by
          unfold CompanionRuns.choose
          split
          · exact ⟨.closed, fun error denied => by cases denied⟩
          · exact ⟨.begun, fun error denied => by cases denied⟩
        exact ⟨sound.setStage chosen.1, iff_of_true (legal_of_set legal rfl chosen.2) rfl⟩
      · contradiction
  | finish index =>
      obtain ⟨run, present, rest⟩ := Option.bind_eq_some_iff.mp stepped
      split at rest
      · cases rest
        refine ⟨sound.setRun ?_ .closed, iff_of_true (legal_of_set legal rfl ?_) rfl⟩
        · split
          · exact sound.states.removeValue _
          · exact sound.states
        · intro error denied
          cases denied
      · contradiction
  | abort index =>
      obtain ⟨run, present, rfl⟩ := Option.map_eq_some_iff.mp stepped
      refine ⟨sound.setStage .closed, iff_of_true (legal_of_set legal rfl ?_) rfl⟩
      intro error denied
      cases denied

theorem legal_of_reachable (reached : ((companionMachine manager).restrict fun s action =>
    s.suited manager action = true).Reachable s) : s.Sound ∧ s.Legal := by
  apply reached.invariant (P := fun s => s.Sound ∧ s.Legal)
  · rintro _ rfl
    constructor
    · constructor
      · intro item member
        cases member
      · intro run member
        cases member
    · intro run member
      cases member
  · intro s action t inv stepped
    obtain ⟨suited, stepped⟩ := Machine.restrict_step.mp stepped
    obtain ⟨sound, legal⟩ := companion_step inv.1 inv.2 stepped
    exact ⟨sound, legal.mpr suited⟩

end CompanionRuns

/-- In every run in which each update finds the state of its trip under way, or freshly seeded with
the plan of a trip that is not completed, no update is denied for its transition. The next step keeps
it so exactly when it meets the condition too. -/
theorem companion_updates_legal {V : Type} (manager : AgentSharedStateManager V)
    (s : CompanionRuns V) (reached : ((companionMachine manager).restrict fun s action =>
      s.suited manager action = true).Reachable s) :
    s.Legal ∧ ∀ action t, (companionMachine manager).step s action = some t →
      (t.Legal ↔ s.suited manager action = true) := by
  obtain ⟨sound, legal⟩ := CompanionRuns.legal_of_reachable reached
  exact ⟨legal, fun action t stepped => (CompanionRuns.companion_step sound legal stepped).2⟩

/-- Severe weather puts a trip at risk, and a worker starts a run for it. -/
def riskyTrip : List (CompanionAction (Option Nat)) :=
  [.trip (.createTrip 0 15 1), .trip (.read 0 (.transition .activeTrip)), .trip (.commit 0),
    .trip (.read 0 (.ingestEvent .weatherAlert { severity := some "severe" } 0)), .trip (.commit 1)]

/-- A run from its start to its update. -/
def companionRun : List (CompanionAction (Option Nat)) :=
  [.begin 0 (some (some 1)), .advance 0, .advance 0, .choose 0 (some 7), .advance 0]

theorem companion_updates_legal_started : ∃ s : CompanionRuns (Option Nat),
    (companionMachine versionManager).run {} (riskyTrip ++ companionRun ++ [.advance 0]) = some s ∧
      s.store.values.map (fun item => item.value.phase) = [.inTrip] ∧ s.Legal := by
  have ran : ∃ s, (companionMachine versionManager).run {}
      (riskyTrip ++ companionRun ++ [.advance 0]) = some s ∧
        s.store.values.map (fun item => item.value.phase) = [.inTrip] := by decide +kernel
  obtain ⟨s, ran, phases⟩ := ran
  have met : (companionMachine versionManager).along (CompanionRuns.suited versionManager) {}
      (riskyTrip ++ companionRun ++ [.advance 0]) = true := by decide +kernel
  have reached := Machine.reachable_restrict_of_run _ rfl ran (Machine.meetsAlong_of_along met)
  exact ⟨s, ran, phases, (companion_updates_legal versionManager s reached).1⟩

/-- The trip is completed before the event that is queued for it is processed. -/
def completedFirst : List (CompanionAction (Option Nat)) :=
  riskyTrip ++ [.trip (.read 0 (.transition .completed)), .trip (.commit 2)] ++ companionRun

/-- The error of a denied update. -/
def RunStage.error {V : Type} : RunStage V → Option SharedStateError
  | .denied error => some error
  | _ => none

theorem completed_trip_denied : ∃ s : CompanionRuns (Option Nat),
    (companionMachine versionManager).Reachable s ∧ ¬ s.Legal ∧
      s.runs.map (fun run => run.stage.error) =
        [some (.access "invalid shared-state transition plan_ready->completed")] := by
  have ran : ∃ s, (companionMachine versionManager).run {} completedFirst = some s ∧
      s.runs.map (fun run => run.stage.error) =
        [some (.access "invalid shared-state transition plan_ready->completed")] := by
    decide +kernel
  obtain ⟨s, ran, denied⟩ := ran
  refine ⟨s, Machine.reachable_of_run _ rfl ran, fun legal => ?_, denied⟩
  obtain ⟨run, member, error⟩ : ∃ run ∈ s.runs, run.stage.error =
      some (.access "invalid shared-state transition plan_ready->completed") := by
    rw [← List.mem_map, denied]
    exact List.mem_singleton_self _
  cases stage : run.stage with
  | denied error' =>
      rw [stage] at error
      obtain rfl := Option.some.inj error
      exact legal run member _ stage
  | _ =>
      rw [stage] at error
      cases error

end MapGo.Companion
