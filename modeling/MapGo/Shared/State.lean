import MapGo.Basic
import MapGo.Runtime.Values

/-! The shared state of a task: who may write which field by which action, and how a next state is
prepared from one that was read. Values are those of the fields in their dumped form; parsing, hashing
and the byte length belong to a codec. -/
namespace MapGo.Shared

inductive AgentType where
  | supervisor | intent | search | safety | planner | critic | companion | replanner
  deriving DecidableEq, Repr

def AgentType.value : AgentType → String
  | .supervisor => "supervisor"
  | .intent => "intent"
  | .search => "search"
  | .safety => "safety"
  | .planner => "planner"
  | .critic => "critic"
  | .companion => "companion"
  | .replanner => "replanner"

/-- The fields of `AgentSharedState` that agents write. -/
inductive StateField where
  | userRequirement | clarificationQuestions | poiCandidates | routePlan | evaluationResult
  | softAdjustments | executionContext
  deriving DecidableEq, Repr

def StateField.name : StateField → String
  | .userRequirement => "user_requirement"
  | .clarificationQuestions => "clarification_questions"
  | .poiCandidates => "poi_candidates"
  | .routePlan => "route_plan"
  | .evaluationResult => "evaluation_result"
  | .softAdjustments => "soft_adjustments"
  | .executionContext => "execution_context"

def StateField.all : List StateField :=
  [.userRequirement, .clarificationQuestions, .poiCandidates, .routePlan, .evaluationResult,
    .softAdjustments, .executionContext]

theorem StateField.mem_all (field : StateField) : field ∈ StateField.all := by
  cases field <;> decide

theorem StateField.name_injective {a b : StateField} (same : a.name = b.name) : a = b := by
  cases a <;> cases b <;> first | rfl | exact absurd same (by decide)

/-- `WRITE_FIELDS` -/
def writeFields : AgentType → List StateField
  | .supervisor => [.softAdjustments, .executionContext]
  | .intent => [.userRequirement, .clarificationQuestions]
  | .search => [.poiCandidates]
  | .safety => [.executionContext]
  | .planner => [.routePlan]
  | .critic => [.evaluationResult]
  | .companion => [.executionContext]
  | .replanner => []

inductive SharedPhase where
  | initialized | intentReady | searchReady | safetyReady | planReady | reviewed | retrying
  | finalized | inTrip | completed | failed
  deriving DecidableEq, Repr

def SharedPhase.value : SharedPhase → String
  | .initialized => "initialized"
  | .intentReady => "intent_ready"
  | .searchReady => "search_ready"
  | .safetyReady => "safety_ready"
  | .planReady => "plan_ready"
  | .reviewed => "reviewed"
  | .retrying => "retrying"
  | .finalized => "finalized"
  | .inTrip => "in_trip"
  | .completed => "completed"
  | .failed => "failed"

/-- `ACTION_PHASE` -/
def actionPhase (action : String) : Option SharedPhase :=
  [("intent_analyzed", .intentReady), ("search_completed", .searchReady),
    ("safety_checked", .safetyReady), ("plan_completed", .planReady),
    ("critic_reviewed", .reviewed), ("soft_retry_scheduled", .retrying),
    ("recovery_applied", .retrying), ("workflow_finalized", .finalized),
    ("workflow_failed", .failed), ("trip_started", .inTrip), ("trip_event_processed", .inTrip),
    ("trip_completed", SharedPhase.completed)].lookup action

/-- `ACTION_ACTORS` -/
def actionActors (action : String) : List AgentType :=
  ([("intent_analyzed", [.intent]), ("search_completed", [.search]), ("safety_checked", [.safety]),
    ("plan_completed", [.planner]), ("critic_reviewed", [.critic]),
    ("soft_retry_scheduled", [.supervisor]), ("recovery_applied", [.supervisor]),
    ("workflow_finalized", [.supervisor]), ("workflow_failed", [.supervisor]),
    ("trip_started", [.companion]), ("trip_event_processed", [.companion]),
    ("trip_completed", [AgentType.companion])].lookup action).getD []

/-- `ALLOWED_TRANSITIONS` -/
def allowedPhases : SharedPhase → List SharedPhase
  | .initialized => [.intentReady, .planReady, .retrying, .failed]
  | .intentReady => [.searchReady, .retrying, .finalized, .failed]
  | .searchReady => [.safetyReady, .planReady, .retrying, .failed]
  | .safetyReady => [.planReady, .retrying, .failed]
  | .planReady => [.reviewed, .retrying, .finalized, .inTrip, .failed]
  | .reviewed => [.retrying, .finalized, .failed]
  | .retrying => [.retrying, .searchReady, .planReady, .failed]
  | .finalized => [.inTrip, .completed]
  | .inTrip => [.inTrip, .completed, .failed]
  | .completed => []
  | .failed => []

structure SharedStateEvent where
  revision : Nat
  actor : AgentType
  action : String
  changedFields : List String
  messageId : Option String
  changeHash : String
  createdAt : Nat
  deriving DecidableEq, Repr

/-- Times are the seconds of one clock. -/
structure SharedState (V : Type) where
  taskId : String
  revision : Nat := 0
  stateHash : String := ""
  phase : SharedPhase
  content : StateField → V
  executionHistory : List SharedStateEvent
  createdAt : Nat
  updatedAt : Nat
  expiresAt : Nat

/-- What the manager uses of the field schemas, of `json` and of `hashlib`. Parsing gives the dumped
form of a field, and a dumped form parses to itself. -/
structure StateCodec (V : Type) where
  default : StateField → V
  parse : StateField → V → Option V
  /-- `plan.get("status")` -/
  status : V → Option String
  /-- `int((plan or {}).get("plan_version") or 0)`; `none` where `int` raises. -/
  planVersion : V → Option Int
  hashValue : V → String
  hashChanges : List (String × V) → String
  hashState : SharedState V → String
  bytes : SharedState V → Nat
  parse_default : ∀ field, parse field (default field) = some (default field)
  parse_parsed : ∀ field value dumped, parse field value = some dumped →
    parse field dumped = some dumped

inductive SharedStateError where
  | access (message : String)
  | conflict (message : String)
  | notFound (message : String)
  | state (message : String)
  /-- A `ValidationError` of the schema. -/
  | validation
  /-- `int` of a plan version that is no number. -/
  | value
  deriving DecidableEq, Repr

namespace StateCodec
variable {V : Type} (codec : StateCodec V)

/-- `AgentSharedState.model_validate` -/
def validate (state : SharedState V) : Except SharedStateError (SharedState V) :=
  if StateField.all.all (fun field => (codec.parse field (state.content field)).isSome) &&
      (8 ≤ state.taskId.length && state.taskId.length ≤ 128) &&
      state.executionHistory.length ≤ 200 then
    .ok { state with
      content := fun field => (codec.parse field (state.content field)).getD (state.content field) }
  else .error .validation

/-- `_state_hash`: the stored hash is left out. -/
def stateHash (state : SharedState V) : String := codec.hashState { state with stateHash := "" }

/-- `_seal` -/
def sealState (state : SharedState V) : SharedState V := { state with stateHash := codec.stateHash state }

/-- A raw value that was read: it is validated and its hash is compared. -/
def verified (raw : SharedState V) : Except SharedStateError (SharedState V) := do
  let state ← codec.validate raw
  if state.stateHash ≠ codec.stateHash state then
    .error (.state "shared state content hash mismatch")
  else return state

/-- A stored value: it validates to itself and carries its own hash. -/
structure Sealed (state : SharedState V) : Prop where
  valid : codec.validate state = .ok state
  hashed : state.stateHash = codec.stateHash state

variable {codec} {state validated : SharedState V}

theorem validate_ok_iff : codec.validate state = .ok validated ↔
    (∀ field, codec.parse field (state.content field) = some (validated.content field)) ∧
      (8 ≤ state.taskId.length ∧ state.taskId.length ≤ 128) ∧
      state.executionHistory.length ≤ 200 ∧
      validated = { state with content := validated.content } := by
  unfold validate
  constructor
  · intro valid
    split at valid
    · rename_i fits
      cases valid
      simp only [Bool.and_eq_true, List.all_eq_true, decide_eq_true_eq] at fits
      refine ⟨fun field => ?_, fits.1.2, fits.2, rfl⟩
      obtain ⟨dumped, parsed⟩ := Option.isSome_iff_exists.mp (fits.1.1 field field.mem_all)
      simp only [parsed, Option.getD_some]
    · contradiction
  · rintro ⟨parsed, length, history, same⟩
    rw [if_pos ?_]
    · rw [same]
      congr 2
      funext field
      rw [parsed field, Option.getD_some]
    · simp [parsed, length, history]

theorem verified_revision {raw : SharedState V} (verified : codec.verified raw = .ok state) :
    state.revision = raw.revision := by
  obtain ⟨validated, valid, same⟩ := bind_eq_ok.mp verified
  split at same
  · contradiction
  · cases same
    rw [(validate_ok_iff.mp valid).2.2.2]

/-- Every field of a sealed state is in its dumped form. -/
theorem Sealed.parse (sealed : codec.Sealed state) (field : StateField) :
    codec.parse field (state.content field) = some (state.content field) :=
  (validate_ok_iff.mp sealed.valid).1 field

theorem Sealed.verified (sealed : codec.Sealed state) : codec.verified state = .ok state := by
  simp only [StateCodec.verified, sealed.valid, bind, Except.bind]
  exact if_neg (not_not.mpr sealed.hashed)

/-- A validated payload is sealed as it is stored. -/
theorem sealed_of_validate (valid : codec.validate state = .ok validated) :
    codec.Sealed (codec.sealState validated) where
  valid := by
    obtain ⟨parsed, length, history, same⟩ := validate_ok_iff.mp valid
    refine validate_ok_iff.mpr ⟨fun field => ?_, ?_, ?_, rfl⟩
    · exact codec.parse_parsed field _ _ (parsed field)
    · rw [same]
      exact length
    · rw [same]
      exact history
  hashed := rfl

end StateCodec

structure AgentSharedStateManager (V : Type) where
  codec : StateCodec V
  agentSharedStateTtlSeconds : Nat := 7200
  agentSharedStateMaxHistory : Nat := 100
  agentSharedStateMaxBytes : Nat := 512000

/-- `f"{sorted(names)}"` for plain names. -/
def listText (names : List String) : String :=
  "[" ++ ", ".intercalate ((names.mergeSort fun a b => a ≤ b).map fun name => "'" ++ name ++ "'") ++
    "]"

namespace AgentSharedStateManager
variable {V : Type} (manager : AgentSharedStateManager V)

def ttlSeconds : Nat := max 60 manager.agentSharedStateTtlSeconds

def maxHistory : Nat := min 200 (max 1 manager.agentSharedStateMaxHistory)

def maxBytes : Nat := max 16384 manager.agentSharedStateMaxBytes

/-- `_serialized` -/
def serialized (state : SharedState V) : Except SharedStateError (SharedState V) :=
  if manager.maxBytes < manager.codec.bytes state then
    .error (.state "shared state exceeds configured byte limit")
  else .ok state

/-- `[*history, event][-self.max_history :]` -/
def history (current : SharedState V) (event : SharedStateEvent) : List SharedStateEvent :=
  let extended := current.executionHistory ++ [event]
  extended.drop (extended.length - manager.maxHistory)

/-- A payload becomes a sealed state that fits. -/
def finish (payload : SharedState V) : Except SharedStateError (SharedState V) := do
  let updated ← manager.codec.validate payload
  manager.serialized (manager.codec.sealState updated)

/-- The first state of a task before it is sealed. -/
def firstState (taskId : String) (routePlan : Option V) (now : Nat) : SharedState V :=
  let initialChange := (routePlan.map fun plan => ("route_plan", plan)).toList
  let event : SharedStateEvent :=
    { revision := 0
      actor := .supervisor
      action := "state_initialized"
      changedFields := initialChange.map Prod.fst
      messageId := none
      changeHash := manager.codec.hashChanges initialChange
      createdAt := now }
  { taskId := taskId
    phase := if routePlan.isSome then .planReady else .initialized
    content := fun field =>
      if field = .routePlan then routePlan.getD (manager.codec.default field)
      else manager.codec.default field
    executionHistory := [event]
    createdAt := now
    updatedAt := now
    expiresAt := now + manager.ttlSeconds }

/-- `initialize` between its read and its write. -/
def initialState (taskId : String) (routePlan : Option V) (now : Nat) :
    Except SharedStateError (SharedState V) :=
  if routePlan.any fun plan => manager.codec.status plan ≠ some "success" then
    .error (.access "only a successful formal plan can seed trip state")
  else manager.finish (manager.firstState taskId routePlan now)

def revisionText (revision : Nat) (expectedRevision : Int) : String :=
  "shared state revision is " ++ toString revision ++ ", expected " ++ toString expectedRevision

/-- The state with another formal plan before it is sealed. -/
def refreshedState (current : SharedState V) (routePlan : V) (now : Nat) : SharedState V :=
  let event : SharedStateEvent :=
    { revision := current.revision + 1
      actor := .supervisor
      action := "formal_plan_refreshed"
      changedFields := ["route_plan"]
      messageId := none
      changeHash := manager.codec.hashValue routePlan
      createdAt := now }
  { current with
    revision := current.revision + 1
    content := Function.update current.content .routePlan routePlan
    executionHistory := manager.history current event
    updatedAt := now
    expiresAt := now + manager.ttlSeconds }

/-- `sync_formal_route_plan` between its read and its write; `none` returns the state that was read. -/
def preparePlan (current : SharedState V) (expectedRevision : Int) (routePlan : V) (now : Nat) :
    Except SharedStateError (Option (SharedState V)) := do
  if (current.revision : Int) ≠ expectedRevision then
    .error (.conflict (revisionText current.revision expectedRevision))
  else
    match manager.codec.planVersion (current.content .routePlan),
        manager.codec.planVersion routePlan with
    | some oldVersion, some newVersion =>
        if newVersion < oldVersion then
          .error (.access "formal plan version cannot move backwards")
        else if manager.codec.hashValue (current.content .routePlan) =
            manager.codec.hashValue routePlan then
          return none
        else
          let updated ← manager.finish (manager.refreshedState current routePlan now)
          return some updated
    | _, _ => .error .value

/-- The checks of `update` before its read. -/
def authorize (actor : AgentType) (action : String) (changes : List (String × V)) :
    Except SharedStateError Unit :=
  if (actionPhase action).isNone ∨ actor ∉ actionActors action then
    .error (.access (actor.value ++ " cannot perform shared-state action " ++ action))
  else
    let forbidden := (changes.map Prod.fst).filter fun name =>
      name ∉ (writeFields actor).map StateField.name
    if forbidden ≠ [] then
      .error (.access (actor.value ++ " cannot write shared-state fields " ++ listText forbidden))
    else .ok ()

/-- `update` between its read and its write. -/
def prepareUpdate (current : SharedState V) (actor : AgentType) (expectedRevision : Int)
    (action : String) (changes : List (String × V)) (messageId : Option String) (now : Nat) :
    Except SharedStateError (SharedState V) :=
  if (current.revision : Int) ≠ expectedRevision then
    .error (.conflict (revisionText current.revision expectedRevision))
  else
    match actionPhase action with
    | none => .error (.access (actor.value ++ " cannot perform shared-state action " ++ action))
    | some nextPhase =>
        if nextPhase ∉ allowedPhases current.phase then
          .error (.access ("invalid shared-state transition " ++ current.phase.value ++ "->" ++
            nextPhase.value))
        else
          let event : SharedStateEvent :=
            { revision := current.revision + 1
              actor := actor
              action := action
              changedFields := (changes.map Prod.fst).mergeSort fun a b => a ≤ b
              messageId := messageId
              changeHash := manager.codec.hashChanges changes
              createdAt := now }
          manager.finish { current with
            revision := current.revision + 1
            phase := nextPhase
            content := fun field => (changes.lookup field.name).getD (current.content field)
            executionHistory := manager.history current event
            updatedAt := now
            expiresAt := now + manager.ttlSeconds }

/-- The history holds the last revisions up to that of the state. -/
def Recorded (state : SharedState V) : Prop :=
  state.executionHistory.map SharedStateEvent.revision =
    (List.range (state.revision + 1)).drop (state.revision + 1 - manager.maxHistory)

/-- A state as it is stored. -/
structure Stored (taskId : String) (state : SharedState V) : Prop where
  sealed : manager.codec.Sealed state
  recorded : manager.Recorded state
  task : state.taskId = taskId

/-- What the action of an event may change. -/
inductive Authorized (old new : SharedState V) (event : SharedStateEvent) : Prop where
  | refresh : event.actor = .supervisor → event.action = "formal_plan_refreshed" →
      new.phase = old.phase →
      (∀ field, new.content field ≠ old.content field → field = .routePlan) → Authorized old new event
  | update : event.actor ∈ actionActors event.action → actionPhase event.action = some new.phase →
      new.phase ∈ allowedPhases old.phase →
      (∀ field, new.content field ≠ old.content field → field ∈ writeFields event.actor) →
      Authorized old new event

/-- The next stored state: one more revision, with an event that may make the change. -/
structure Successor (old new : SharedState V) : Prop where
  revision : new.revision = old.revision + 1
  created : new.createdAt = old.createdAt
  event : ∃ event, event.revision = new.revision ∧
    new.executionHistory = manager.history old event ∧ Authorized old new event

variable {manager} {current next payload : SharedState V}

theorem one_le_maxHistory : 1 ≤ manager.maxHistory := by
  simp only [maxHistory]
  omega

/-- The trimmed history again ends at the revision of its event. -/
theorem recorded_history (recorded : manager.Recorded current) {event : SharedStateEvent}
    (following : event.revision = current.revision + 1) :
    (manager.history current event).map SharedStateEvent.revision =
      (List.range (current.revision + 2)).drop (current.revision + 2 - manager.maxHistory) := by
  have positive := @one_le_maxHistory V manager
  have size := congrArg List.length recorded
  rw [List.length_map, List.length_drop, List.length_range] at size
  rw [history, List.map_drop, List.map_append, recorded, List.map_singleton, following,
    List.length_append, List.length_singleton, size,
    ← List.drop_append_of_le_length (by rw [List.length_range]; omega), ← List.range_succ,
    List.drop_drop]
  congr 1
  omega

/-- A finished payload differs from its parts only in the dumped fields and the hash. -/
theorem finish_ok (finished : manager.finish payload = .ok next) :
    manager.codec.Sealed next ∧
      (∀ field, manager.codec.parse field (payload.content field) = some (next.content field)) ∧
      next = { payload with content := next.content, stateHash := next.stateHash } := by
  unfold finish at finished
  cases valid : manager.codec.validate payload with
  | error error => simp [valid, bind, Except.bind] at finished
  | ok validated =>
      simp only [valid, bind, Except.bind, serialized] at finished
      split at finished
      · contradiction
      · cases finished
        obtain ⟨parsed, -, -, same⟩ := StateCodec.validate_ok_iff.mp valid
        refine ⟨StateCodec.sealed_of_validate valid, parsed, ?_⟩
        rw [StateCodec.sealState, same]

theorem initialState_ok {taskId : String} {routePlan : Option V} {now : Nat}
    (initialized : manager.initialState taskId routePlan now = .ok next) :
    manager.Stored taskId next ∧ next.revision = 0 := by
  unfold initialState at initialized
  split at initialized
  · contradiction
  · obtain ⟨sealed, -, same⟩ := finish_ok initialized
    have positive := @one_le_maxHistory V manager
    rw [same]
    refine ⟨⟨same ▸ sealed, ?_, rfl⟩, rfl⟩
    simp [Recorded, firstState, Nat.sub_eq_zero_of_le positive]

/-- A finished payload with the next revision and its event follows the state it was made from. -/
theorem successor_of_finish {taskId : String} (stored : manager.Stored taskId current)
    {event : SharedStateEvent} (finished : manager.finish payload = .ok next)
    (following : event.revision = current.revision + 1)
    (task : payload.taskId = current.taskId) (created : payload.createdAt = current.createdAt)
    (revision : payload.revision = current.revision + 1)
    (history : payload.executionHistory = manager.history current event)
    (authorized : Authorized current next event) :
    manager.Stored taskId next ∧ manager.Successor current next := by
  obtain ⟨sealed, -, same⟩ := finish_ok finished
  have nextRevision : next.revision = current.revision + 1 := by rw [same]; exact revision
  have nextHistory : next.executionHistory = manager.history current event := by rw [same]; exact history
  refine ⟨⟨sealed, ?_, ?_⟩, ⟨nextRevision, ?_, event, following.trans nextRevision.symm, nextHistory,
    authorized⟩⟩
  · rw [Recorded, nextHistory, nextRevision]
    exact recorded_history stored.recorded following
  · rw [same]
    exact task.trans stored.task
  · rw [same]
    exact created

theorem preparePlan_ok {taskId : String} (stored : manager.Stored taskId current) {expected : Int}
    {routePlan : V} {now : Nat}
    (refreshed : manager.preparePlan current expected routePlan now = .ok (some next)) :
    (current.revision : Int) = expected ∧ manager.Stored taskId next ∧
      manager.Successor current next := by
  unfold preparePlan at refreshed
  split at refreshed
  · contradiction
  · rename_i matched
    refine ⟨not_not.mp matched, ?_⟩
    split at refreshed
    · split at refreshed
      · contradiction
      · split at refreshed
        · cases refreshed
        · simp only [bind, Except.bind] at refreshed
          split at refreshed
          · contradiction
          · rename_i finished
            cases refreshed
            refine successor_of_finish stored finished rfl rfl rfl rfl rfl ?_
            obtain ⟨-, parsed, same⟩ := finish_ok finished
            refine .refresh rfl rfl (by rw [same]; rfl) fun field changed => ?_
            by_contra apart
            have kept := parsed field
            simp only [refreshedState, Function.update_of_ne apart, stored.sealed.parse field] at kept
            exact changed (Option.some.inj kept).symm
    · contradiction

theorem preparePlan_revision {expected : Int} {routePlan : V} {now : Nat}
    (refreshed : manager.preparePlan current expected routePlan now = .ok (some next)) :
    (next.revision : Int) = expected + 1 := by
  unfold preparePlan at refreshed
  split at refreshed
  · contradiction
  · rename_i matched
    split at refreshed
    · split at refreshed
      · contradiction
      · split at refreshed
        · cases refreshed
        · obtain ⟨updated, finished, same⟩ := bind_eq_ok.mp refreshed
          cases same
          have revision : next.revision = current.revision + 1 := by
            rw [(finish_ok finished).2.2]
            rfl
          omega
    · contradiction

theorem prepareUpdate_revision {actor : AgentType} {expected : Int} {action : String}
    {changes : List (String × V)} {messageId : Option String} {now : Nat}
    (updated : manager.prepareUpdate current actor expected action changes messageId now = .ok next) :
    (next.revision : Int) = expected + 1 := by
  unfold prepareUpdate at updated
  split at updated
  · contradiction
  · rename_i matched
    split at updated
    · contradiction
    · split at updated
      · contradiction
      · have revision : next.revision = current.revision + 1 := by
          rw [(finish_ok updated).2.2]
        omega

theorem prepareUpdate_sealed {actor : AgentType} {expected : Int} {action : String}
    {changes : List (String × V)} {messageId : Option String} {now : Nat}
    (updated : manager.prepareUpdate current actor expected action changes messageId now = .ok next) :
    (current.revision : Int) = expected ∧ manager.codec.Sealed next := by
  unfold prepareUpdate at updated
  split at updated
  · contradiction
  · rename_i matched
    refine ⟨not_not.mp matched, ?_⟩
    split at updated
    · contradiction
    · split at updated
      · contradiction
      · exact (finish_ok updated).1

theorem authorize_ok {actor : AgentType} {action : String} {changes : List (String × V)}
    (authorized : authorize actor action changes = .ok ()) :
    actor ∈ actionActors action ∧
      ∀ field, field ∉ writeFields actor → changes.lookup field.name = none := by
  unfold authorize at authorized
  split at authorized
  · contradiction
  · rename_i permitted
    dsimp only at authorized
    split at authorized
    · contradiction
    · rename_i allowed
      refine ⟨not_not.mp fun absent => permitted (.inr absent), fun field forbidden => ?_⟩
      rw [List.lookup_eq_none_iff]
      intro change member
      have inside := List.filter_eq_nil_iff.mp (not_not.mp allowed) change.1
        (List.mem_map_of_mem member)
      simp only [decide_eq_true_eq, not_not] at inside
      obtain ⟨written, mayWrite, same⟩ := List.mem_map.mp inside
      rw [bne_iff_ne, ← same]
      intro equal
      exact forbidden (StateField.name_injective equal ▸ mayWrite)

theorem prepareUpdate_ok {taskId : String} (stored : manager.Stored taskId current)
    {actor : AgentType} {expected : Int} {action : String} {changes : List (String × V)}
    {messageId : Option String} {now : Nat} (authorized : authorize actor action changes = .ok ())
    (updated : manager.prepareUpdate current actor expected action changes messageId now = .ok next) :
    (current.revision : Int) = expected ∧ manager.Stored taskId next ∧
      manager.Successor current next := by
  obtain ⟨may, absent⟩ := authorize_ok authorized
  unfold prepareUpdate at updated
  split at updated
  · contradiction
  · rename_i matched
    refine ⟨not_not.mp matched, ?_⟩
    split at updated
    · contradiction
    · rename_i phase reached
      split at updated
      · contradiction
      · rename_i allowed
        refine successor_of_finish stored updated rfl rfl rfl rfl rfl ?_
        obtain ⟨-, parsed, same⟩ := finish_ok updated
        have phases : next.phase = phase := by rw [same]
        refine .update may (phases ▸ reached) (phases ▸ not_not.mp allowed) fun field changed => ?_
        by_contra forbidden
        have kept := parsed field
        simp only [absent field forbidden, Option.getD_none] at kept
        rw [stored.sealed.parse field] at kept
        exact changed (Option.some.inj kept).symm

end AgentSharedStateManager
end MapGo.Shared
