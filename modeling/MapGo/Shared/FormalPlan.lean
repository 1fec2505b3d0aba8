import MapGo.Patch.Labels
import MapGo.Shared.Protocol

/-! Formal plans in the shared state of a trip. Accepted patches make the versions of a plan, and
calls that follow one another pass the stored snapshots on, in any order. -/
namespace MapGo.Shared

open Transition MapGo.Runtime MapGo.Patch

/-- `json.loads` of a stored snapshot, as a codec reads it. -/
structure PlanEncoding {V : Type} (codec : StateCodec V) where
  encode : Snapshot → V
  status_encode : ∀ snapshot, codec.status (encode snapshot) = snapshot.status
  planVersion_encode : ∀ snapshot,
    codec.planVersion (encode snapshot) = some ((snapshot.planVersion.getD 0 : Nat) : Int)
  planVersion_default : codec.planVersion (codec.default .routePlan) = some 0
  parse_encode : ∀ snapshot, codec.parse .routePlan (encode snapshot) = some (encode snapshot)

namespace AgentSharedStateManager
variable {V : Type} (manager : AgentSharedStateManager V)

/-- A call that is not interrupted, up to its write or its end. -/
def complete (now : Nat) : Nat → ValueStore (SharedState V) → SharedCall V → Step V
  | 0, store, call => (call.phase, store, none)
  | fuel + 1, store, call =>
      match manager.advance store now call with
      | none => (call.phase, store, none)
      | some (phase, after, some state) => (phase, after, some state)
      | some (phase, after, none) => complete now fuel after { call with phase := phase }

/-- No call takes more than three steps. -/
def perform (store : ValueStore (SharedState V)) (now : Nat) (taskId : String)
    (request : SharedRequest V) : Step V :=
  manager.complete now 3 store ⟨taskId, request, .begun⟩

/-- The state does not fit in the store once it is sealed. -/
def oversized (store : ValueStore (SharedState V)) (state : SharedState V) : Bool :=
  manager.maxBytes < manager.codec.bytes (manager.codec.sealState state) ||
    store.maxValueBytes < manager.codec.bytes (manager.codec.sealState state)

end AgentSharedStateManager

/-- How a call passes a formal plan. -/
inductive PlanCall where
  | initialization
  | sync (expectedRevision : Int)
  deriving DecidableEq, Repr

def PlanCall.request {V : Type} (plan : V) : PlanCall → SharedRequest V
  | .initialization => .initialization (some plan)
  | .sync expectedRevision => .syncFormalRoutePlan expectedRevision plan

/-- The revision that a call expects of the state that it reads. -/
def PlanCall.expects {V : Type} (current : SharedState V) : PlanCall → Int
  | .initialization => current.revision
  | .sync expectedRevision => expectedRevision

/-- The plan that a request passes. -/
def SharedRequest.plan {V : Type} : SharedRequest V → Option V
  | .initialization plan => plan
  | .syncFormalRoutePlan _ plan => some plan
  | _ => none

/-- The request neither passes nor writes a plan. -/
def SharedRequest.keepsPlan {V : Type} (request : SharedRequest V) : Bool :=
  request.plan.isNone && match request with
    | .update _ _ _ changes _ => (changes.lookup StateField.routePlan.name).isNone
    | _ => true

def CallPhase.raises {V : Type} : CallPhase V → Bool
  | .raised _ => true
  | _ => false

/-- A call finds another revision than it expects, or would store a state that does not fit. -/
def AgentSharedStateManager.refuses {V : Type} (manager : AgentSharedStateManager V)
    (store : ValueStore (SharedState V)) (now : Nat) (taskId : String) (plan : V) (call : PlanCall) :
    Bool :=
  match (store.getJson (stateKey taskId) now).1 with
  | none => match call with
    | .initialization => manager.oversized store (manager.firstState taskId (some plan) now)
    | .sync _ => true
  | some current => call.expects current ≠ current.revision ||
      (manager.codec.hashValue (current.content .routePlan) ≠ manager.codec.hashValue plan &&
        manager.oversized store (manager.refreshedState current plan now))

structure FormalCall (V : Type) where
  taskId : String
  version : Nat
  /-- The versions whose snapshots were stored for the task before the call. -/
  stored : List Nat
  outcome : CallPhase V

/-- A snapshot of a later version has been stored. -/
def FormalCall.overtaken {V : Type} (call : FormalCall V) : Bool :=
  call.stored.any fun version => call.version < version

structure FormalRun (V : Type) where
  plans : PlanRun
  now : Nat := 0
  store : ValueStore (SharedState V) := {}
  /-- History: the task and the version of every snapshot that was stored. -/
  stored : List (String × Nat) := []
  /-- History: the calls that passed a snapshot. -/
  calls : List (FormalCall V) := []

inductive FormalAction (V : Type) where
  | plan (action : PlanAction)
  | pass (taskId : String) (version : Nat) (call : PlanCall)
  | other (taskId : String) (request : SharedRequest V)
  | wait (seconds : Nat)

namespace FormalRun
variable {V : Type} (manager : AgentSharedStateManager V) (encoding : PlanEncoding manager.codec)

def storedVersions (s : FormalRun V) (taskId : String) : List Nat :=
  (s.stored.filter fun entry => entry.1 = taskId).map Prod.snd

def version (s : FormalRun V) (number : Nat) : Option PlanVersion :=
  s.plans.versions.find? fun row => row.version = number

/-- A call with the snapshot of a version, up to its end. -/
def pass (s : FormalRun V) (taskId : String) (row : PlanVersion) (call : PlanCall) : FormalRun V :=
  let done := manager.perform s.store s.now taskId (call.request (encoding.encode row.snapshot))
  { s with
    store := done.2.1
    stored := s.stored ++ (done.2.2.map fun _ => (taskId, row.version)).toList
    calls := s.calls ++ [⟨taskId, row.version, s.storedVersions taskId, done.1⟩] }

def step (s : FormalRun V) : FormalAction V → Option (FormalRun V)
  | .plan action => (s.plans.step action).map fun plans => { s with plans := plans }
  | .pass taskId version call =>
      (s.version version).map fun row => s.pass manager encoding taskId row call
  | .other taskId request =>
      if request.keepsPlan then
        some { s with store := (manager.perform s.store s.now taskId request).2.1 }
      else none
  | .wait seconds => some { s with now := s.now + seconds }

/-- Calls with the snapshot of a version before one that was stored are rejected. -/
def Forward (s : FormalRun V) : Prop :=
  ∀ call ∈ s.calls, call.overtaken = true → call.outcome.raises = true

/-- The action passes no snapshot of a version before one that was stored, or finds an obstacle. -/
def holdsBack (s : FormalRun V) : FormalAction V → Bool
  | .pass taskId version call => !((s.storedVersions taskId).any fun stored => version < stored) ||
      (s.version version).all fun row =>
        manager.refuses s.store s.now taskId (encoding.encode row.snapshot) call
  | _ => true

end FormalRun

/-- Patches, calls that pass stored snapshots, and other calls on the shared states. -/
def formalMachine {V : Type} (manager : AgentSharedStateManager V)
    (encoding : PlanEncoding manager.codec) : Machine (FormalRun V) (FormalAction V) where
  initial s := ∃ plans, planRunMachine.initial plans ∧ s = { plans := plans }
  step s action := s.step manager encoding action

section
variable {V : Type} {manager : AgentSharedStateManager V} {encoding : PlanEncoding manager.codec}
  {label : Option String × Option Nat} {taskId : String} {store : ValueStore (SharedState V)}
  {now : Nat}

/-- No plan, or a stored snapshot with a label. -/
def PlanEncoding.Carries (encoding : PlanEncoding manager.codec) (label : Option String × Option Nat)
    (plan : V) : Prop :=
  plan = manager.codec.default .routePlan ∨
    ∃ snapshot : Snapshot, snapshot.label = label ∧ plan = encoding.encode snapshot

/-- A stored state of a task with such a plan. -/
structure PlanEncoding.Settled (encoding : PlanEncoding manager.codec)
    (label : Option String × Option Nat) (taskId : String) (state : SharedState V) : Prop where
  stored : manager.Stored taskId state
  plan : encoding.Carries label (state.content .routePlan)

namespace AgentSharedStateManager

theorem preparePlan_plan {current next : SharedState V} {expected : Int} {snapshot : Snapshot}
    (refreshed : manager.preparePlan current expected (encoding.encode snapshot) now =
      .ok (some next)) : next.content .routePlan = encoding.encode snapshot := by
  unfold preparePlan at refreshed
  split at refreshed
  · contradiction
  · split at refreshed
    · split at refreshed
      · contradiction
      · split at refreshed
        · cases refreshed
        · obtain ⟨updated, finished, same⟩ := bind_eq_ok.mp refreshed
          cases same
          have parsed := (finish_ok finished).2.1 .routePlan
          simp only [refreshedState, Function.update_self, encoding.parse_encode] at parsed
          exact (Option.some.inj parsed).symm
    · contradiction

theorem initialState_plan {next : SharedState V} {plan : Option V}
    (initialized : manager.initialState taskId plan now = .ok next)
    (parsed : ∀ value, plan = some value → manager.codec.parse .routePlan value = some value) :
    next.content .routePlan = plan.getD (manager.codec.default .routePlan) ∧
      ∀ value, plan = some value → manager.codec.status value = some "success" := by
  unfold initialState at initialized
  split at initialized
  · contradiction
  · rename_i successful
    have dumped := (finish_ok initialized).2.1 .routePlan
    constructor
    · cases plan with
      | none =>
          simp only [firstState, if_true, Option.getD_none, manager.codec.parse_default] at dumped
          exact (Option.some.inj dumped).symm
      | some value =>
          simp only [firstState, if_true, Option.getD_some, parsed value rfl] at dumped
          exact (Option.some.inj dumped).symm
    · rintro value rfl
      simpa using successful

theorem prepareUpdate_plan {current next : SharedState V} (stored : manager.Stored taskId current)
    {actor : AgentType} {expected : Int} {action : String} {changes : List (String × V)}
    {messageId : Option String} (kept : changes.lookup StateField.routePlan.name = none)
    (updated : manager.prepareUpdate current actor expected action changes messageId now = .ok next) :
    next.content .routePlan = current.content .routePlan := by
  unfold prepareUpdate at updated
  split at updated
  · contradiction
  · split at updated
    · contradiction
    · split at updated
      · contradiction
      · have parsed := (finish_ok updated).2.1 .routePlan
        simp only [kept, Option.getD_none, stored.sealed.parse .routePlan] at parsed
        exact (Option.some.inj parsed).symm

end AgentSharedStateManager

/-- Every state under the key of a task is settled. -/
def PlanEncoding.Keeps (encoding : PlanEncoding manager.codec) (label : Option String × Option Nat)
    (store : ValueStore (SharedState V)) : Prop :=
  ∀ taskId state, store.value (stateKey taskId) = some state → encoding.Settled label taskId state

namespace PlanEncoding.Keeps

theorem of_find (keeps : encoding.Keeps label store) {after : ValueStore (SharedState V)}
    (found : ∀ taskId item, after.find (stateKey taskId) = some item →
      store.find (stateKey taskId) = some item ∨ encoding.Settled label taskId item.value) :
    encoding.Keeps label after := by
  intro taskId state held
  obtain ⟨item, present, rfl⟩ := Option.map_eq_some_iff.mp held
  rcases found taskId item present with before | settled
  · exact keeps taskId item.value (congrArg (Option.map StoredValue.value) before)
  · exact settled

theorem getJson (keeps : encoding.Keeps label store) (key : String) :
    encoding.Keeps label (store.getJson key now).2 :=
  keeps.of_find fun _ _ found => .inl (ValueStore.find_of_getJson found)

theorem compareSet (keeps : encoding.Keeps label store) {state : SharedState V} {expected : Int}
    (settled : encoding.Settled label taskId state) :
    encoding.Keeps label (manager.compareSet store taskId expected state now).2 := by
  refine keeps.of_find fun other item found => ?_
  rcases ValueStore.find_of_compareSetJson found with before | ⟨rfl, same⟩
  · exact .inl before
  · exact .inr (stateKey_injective same ▸ settled)

theorem live (keeps : encoding.Keeps label store) {state : SharedState V}
    (found : (store.getJson (stateKey taskId) now).1 = some state) :
    encoding.Settled label taskId state := by
  rw [ValueStore.getJson_eq] at found
  obtain ⟨item, present, rfl⟩ := Option.map_eq_some_iff.mp found
  have before := ValueStore.find_of_subset (List.filter_subset_self _) present
  exact keeps taskId item.value (congrArg (Option.map StoredValue.value) before)

theorem read (keeps : encoding.Keeps label store) {state : SharedState V}
    (found : manager.read store taskId now = .ok state) : encoding.Settled label taskId state := by
  unfold AgentSharedStateManager.read at found
  split at found
  · contradiction
  · rename_i raw present
    have settled := keeps.live present
    rw [settled.stored.sealed.verified] at found
    cases found
    exact settled

end PlanEncoding.Keeps
/-- A request passes a stored snapshot with the label, or leaves the plan alone. -/
def PlanEncoding.Passes (encoding : PlanEncoding manager.codec) (label : Option String × Option Nat)
    (request : SharedRequest V) : Prop :=
  request.keepsPlan = true ∨
    ∃ snapshot : Snapshot, snapshot.label = label ∧ request.plan = some (encoding.encode snapshot)

/-- What a call has prepared is settled, and successful if it passes a plan. -/
def PlanEncoding.Prepares (encoding : PlanEncoding manager.codec)
    (label : Option String × Option Nat) (taskId : String) (request : SharedRequest V) :
    CallPhase V → Prop
  | .creating state | .storing _ state => encoding.Settled label taskId state ∧
      (request.plan.isSome = true → label.1 = some "success")
  | .syncing _ plan => request.plan = some plan
  | _ => True

namespace PlanEncoding.Prepares
variable {request : SharedRequest V}

theorem beginSync (keeps : encoding.Keeps label store) {snapshot : Snapshot}
    (labelled : snapshot.label = label) (expected : Int) :
    encoding.Prepares label taskId request
      (manager.beginSync store taskId now expected (encoding.encode snapshot)) := by
  unfold AgentSharedStateManager.beginSync
  split
  · trivial
  · rename_i successful
    rw [encoding.status_encode] at successful
    split
    · trivial
    · rename_i current found
      have settled := keeps.read found
      split
      · trivial
      · trivial
      · rename_i next refreshed
        have stored := (AgentSharedStateManager.preparePlan_ok settled.stored refreshed).2.1
        have plan := AgentSharedStateManager.preparePlan_plan refreshed
        refine ⟨⟨stored, .inr ⟨snapshot, labelled, plan⟩⟩, fun _ => ?_⟩
        rw [← labelled]
        exact not_not.mp successful

theorem beginInitialize {plan : Option V}
    (passes : encoding.Passes label (.initialization plan)) :
    encoding.Prepares label taskId (.initialization plan)
      (manager.beginInitialize store taskId now plan) := by
  unfold AgentSharedStateManager.beginInitialize
  split
  · split
    · trivial
    · split
      · trivial
      · split
        · rfl
        · trivial
  · split
    · trivial
    · rename_i state initialized
      have stored := (AgentSharedStateManager.initialState_ok initialized).1
      rcases passes with kept | ⟨snapshot, labelled, passed⟩
      · obtain rfl : plan = none := by simpa [SharedRequest.keepsPlan, SharedRequest.plan] using kept
        have content := AgentSharedStateManager.initialState_plan initialized nofun
        exact ⟨⟨stored, .inl content.1⟩, nofun⟩
      · obtain rfl : plan = some (encoding.encode snapshot) := passed
        obtain ⟨content, successful⟩ := AgentSharedStateManager.initialState_plan initialized (by
          rintro value ⟨⟩
          exact encoding.parse_encode snapshot)
        refine ⟨⟨stored, .inr ⟨snapshot, labelled, content⟩⟩, fun _ => ?_⟩
        rw [← labelled, ← successful _ rfl, encoding.status_encode]
        rfl

theorem beginUpdate (keeps : encoding.Keeps label store) {actor : AgentType} {expected : Int}
    {action : String} {changes : List (String × V)} {messageId : Option String}
    (passes : encoding.Passes label (.update actor expected action changes messageId)) :
    encoding.Prepares label taskId (.update actor expected action changes messageId)
      (manager.beginUpdate store taskId now actor expected action changes messageId) := by
  have kept : changes.lookup StateField.routePlan.name = none := by
    rcases passes with kept | ⟨_, -, passed⟩
    · simpa [SharedRequest.keepsPlan, SharedRequest.plan] using kept
    · contradiction
  unfold AgentSharedStateManager.beginUpdate
  split
  · trivial
  · rename_i authorized
    split
    · trivial
    · rename_i current found
      have settled := keeps.read found
      unfold AgentSharedStateManager.prepared
      split
      · trivial
      · rename_i next updated
        have stored := (AgentSharedStateManager.prepareUpdate_ok settled.stored authorized updated).2.1
        refine ⟨⟨stored, ?_⟩, nofun⟩
        rw [AgentSharedStateManager.prepareUpdate_plan settled.stored kept updated]
        exact settled.plan

theorem reading (keeps : encoding.Keeps label store) {call : SharedCall V}
    (passes : encoding.Passes label call.request)
    (prepares : encoding.Prepares label call.taskId call.request call.phase) {phase : CallPhase V}
    (read : manager.reading store now call = some phase) :
    encoding.Prepares label call.taskId call.request phase := by
  obtain ⟨task, request, before⟩ := call
  cases before with
  | begun =>
      cases read
      cases request with
      | initialization plan => exact beginInitialize passes
      | syncFormalRoutePlan expected plan =>
          rcases passes with kept | ⟨snapshot, labelled, passed⟩
          · contradiction
          · cases passed
            exact beginSync keeps labelled expected
      | update actor expected action changes messageId => exact beginUpdate keeps passes
      | read =>
          dsimp only
          unfold AgentSharedStateManager.ended
          split <;> trivial
  | syncing expected plan =>
      cases read
      rcases passes with kept | ⟨snapshot, labelled, passed⟩
      · simp only [SharedRequest.keepsPlan, Bool.and_eq_true, Option.isNone_iff_eq_none] at kept
        cases kept.1.symm.trans prepares
      · cases passed.symm.trans prepares
        exact beginSync keeps labelled expected
  | rereading =>
      cases read
      dsimp only
      unfold AgentSharedStateManager.reread
      split <;> trivial
  | creating => contradiction
  | storing => contradiction
  | returned => contradiction
  | raised => contradiction

theorem writing {call : SharedCall V}
    (prepares : encoding.Prepares label call.taskId call.request call.phase)
    {pending : AgentSharedStateManager.PendingWrite V}
    (write : AgentSharedStateManager.writing call = some pending) :
    (encoding.Settled label call.taskId pending.state ∧
      (call.request.plan.isSome = true → label.1 = some "success")) ∧
      encoding.Prepares label call.taskId call.request pending.refused := by
  unfold AgentSharedStateManager.writing at write
  split at write
  · rename_i state phase
    cases write
    rw [phase] at prepares
    exact ⟨prepares, trivial⟩
  · rename_i expected state phase
    cases write
    rw [phase] at prepares
    exact ⟨prepares, trivial⟩
  · contradiction

end PlanEncoding.Prepares

namespace AgentSharedStateManager

/-- A call keeps settled states, and what it writes is settled. -/
theorem complete_keeps (fuel : Nat) {store : ValueStore (SharedState V)} {call : SharedCall V}
    (keeps : encoding.Keeps label store) (passes : encoding.Passes label call.request)
    (prepares : encoding.Prepares label call.taskId call.request call.phase) :
    encoding.Keeps label (manager.complete now fuel store call).2.1 ∧
      ∀ state, (manager.complete now fuel store call).2.2 = some state →
        encoding.Settled label call.taskId state ∧
          (call.request.plan.isSome = true → label.1 = some "success") := by
  induction fuel generalizing store call with
  | zero => exact ⟨keeps, nofun⟩
  | succ fuel ih =>
      unfold complete
      cases moved : manager.advance store now call with
      | none => exact ⟨keeps, nofun⟩
      | some step =>
          obtain ⟨phase, after, written⟩ := step
          unfold advance at moved
          split at moved
          · rename_i read
            cases moved
            refine ih (keeps.getJson _) ?_ ?_
            · exact passes
            · exact PlanEncoding.Prepares.reading keeps passes prepares read
          · obtain ⟨pending, write, same⟩ := Option.map_eq_some_iff.mp moved
            obtain ⟨settled, refused⟩ := prepares.writing write
            have kept : encoding.Keeps label (manager.compareSet store call.taskId
                pending.expectedRevision pending.state now).2 := keeps.compareSet settled.1
            unfold AgentSharedStateManager.write at same
            dsimp only at same
            split at same
            · cases same
              refine ⟨kept, ?_⟩
              rintro state ⟨⟩
              exact settled
            · cases same
              refine ih kept ?_ ?_
              · exact passes
              · exact refused

end AgentSharedStateManager
namespace AgentSharedStateManager

theorem perform_keeps {request : SharedRequest V} (keeps : encoding.Keeps label store)
    (passes : encoding.Passes label request) :
    encoding.Keeps label (manager.perform store now taskId request).2.1 ∧
      ∀ state, (manager.perform store now taskId request).2.2 = some state →
        encoding.Settled label taskId state ∧
          (request.plan.isSome = true → label.1 = some "success") :=
  complete_keeps 3 keeps passes trivial

/-- A payload whose fields are in their dumped form is sealed as it is, if it fits. -/
theorem finish_valid {payload : SharedState V}
    (valid : manager.codec.validate payload = .ok payload) :
    manager.finish payload = manager.serialized (manager.codec.sealState payload) := by
  simp only [finish, valid, bind, Except.bind]

theorem length_history_le (current : SharedState V) (event : SharedStateEvent) :
    (manager.history current event).length ≤ 200 := by
  simp only [history, List.length_drop, maxHistory]
  omega

theorem finish_refreshed {current : SharedState V} (stored : manager.Stored taskId current)
    (encoding : PlanEncoding manager.codec) (snapshot : Snapshot) :
    manager.finish (manager.refreshedState current (encoding.encode snapshot) now) =
      manager.serialized (manager.codec.sealState
        (manager.refreshedState current (encoding.encode snapshot) now)) := by
  refine finish_valid (StateCodec.validate_ok_iff.mpr ⟨fun field => ?_, ?_, ?_, rfl⟩)
  · by_cases plan : field = .routePlan
    · subst plan
      simp only [refreshedState, Function.update_self]
      exact encoding.parse_encode snapshot
    · simp only [refreshedState, Function.update_of_ne plan]
      exact stored.sealed.parse field
  · exact (StateCodec.validate_ok_iff.mp stored.sealed.valid).2.1
  · exact length_history_le ..

theorem finish_first (fits : 8 ≤ taskId.length ∧ taskId.length ≤ 128)
    (encoding : PlanEncoding manager.codec) (snapshot : Snapshot) :
    manager.finish (manager.firstState taskId (some (encoding.encode snapshot)) now) =
      manager.serialized (manager.codec.sealState
        (manager.firstState taskId (some (encoding.encode snapshot)) now)) := by
  refine finish_valid (StateCodec.validate_ok_iff.mpr ⟨fun field => ?_, fits, ?_, rfl⟩)
  · by_cases plan : field = .routePlan
    · subst plan
      exact encoding.parse_encode snapshot
    · simp only [firstState, if_neg plan]
      exact manager.codec.parse_default field
  · simp [firstState]

/-- The versions that snapshots of a run name are equal, so no plan is older than another. -/
theorem not_older {current : V} {snapshot : Snapshot} (carried : encoding.Carries label current)
    (labelled : snapshot.label = label) : ∃ old new, manager.codec.planVersion current = some old ∧
      manager.codec.planVersion (encoding.encode snapshot) = some new ∧ ¬ new < old := by
  rcases carried with rfl | ⟨other, same, rfl⟩
  · exact ⟨_, _, encoding.planVersion_default, encoding.planVersion_encode snapshot, by omega⟩
  · refine ⟨_, _, encoding.planVersion_encode other, encoding.planVersion_encode snapshot, ?_⟩
    have equal : other.planVersion = snapshot.planVersion :=
      congrArg Prod.snd (same.trans labelled.symm)
    rw [equal]
    exact lt_irrefl _

theorem status_of_label {snapshot : Snapshot} (labelled : snapshot.label = label)
    (successful : label.1 = some "success") :
    manager.codec.status (encoding.encode snapshot) = some "success" := by
  rw [encoding.status_encode, ← successful, ← labelled]
  rfl

/-- The phase of a call that passes a successful snapshot, after its read of a settled state. -/
theorem beginSync_live {current : SharedState V} {snapshot : Snapshot}
    (live : (store.getJson (stateKey taskId) now).1 = some current)
    (settled : encoding.Settled label taskId current) (labelled : snapshot.label = label)
    (successful : label.1 = some "success") (expected : Int) :
    manager.beginSync store taskId now expected (encoding.encode snapshot) =
      if (current.revision : Int) ≠ expected then
        .raised (.conflict (revisionText current.revision expected))
      else if manager.codec.hashValue (current.content .routePlan) =
          manager.codec.hashValue (encoding.encode snapshot) then .returned current
      else prepared expected (manager.serialized (manager.codec.sealState
        (manager.refreshedState current (encoding.encode snapshot) now))) := by
  have status : manager.codec.status (encoding.encode snapshot) = some "success" :=
    status_of_label labelled successful
  have found : manager.read store taskId now = .ok current := by
    simp only [AgentSharedStateManager.read, live]
    exact settled.stored.sealed.verified
  obtain ⟨old, new, held, passed, ordered⟩ := not_older settled.plan labelled
  simp only [beginSync, status, ne_eq, not_true_eq_false, if_false, found, preparePlan, held, passed,
    ordered, finish_refreshed settled.stored]
  by_cases matched : (current.revision : Int) = expected
  · by_cases same : manager.codec.hashValue (current.content .routePlan) =
        manager.codec.hashValue (encoding.encode snapshot)
    · simp [matched, same, pure, Except.pure]
    · cases finished : manager.serialized (manager.codec.sealState
          (manager.refreshedState current (encoding.encode snapshot) now)) <;>
        simp [matched, same, prepared, pure, Except.pure, bind, Except.bind]
  · simp [matched]

/-- A call that has ended makes no step. -/
theorem complete_ended (fuel : Nat) {store : ValueStore (SharedState V)} {call : SharedCall V}
    (ended : manager.advance store now call = none) :
    manager.complete now fuel store call = (call.phase, store, none) := by
  cases fuel with
  | zero => rfl
  | succ fuel => rw [complete, ended]

theorem complete_reading (fuel : Nat) {call : SharedCall V} {phase : CallPhase V}
    (read : manager.reading store now call = some phase) :
    manager.complete now (fuel + 1) store call =
      manager.complete now fuel (store.getJson (stateKey call.taskId) now).2
        { call with phase := phase } := by
  rw [complete, advance, read]

theorem complete_writing (fuel : Nat) {call : SharedCall V} {pending : PendingWrite V}
    (quiet : manager.reading store now call = none) (write : writing call = some pending) :
    (manager.complete now (fuel + 1) store call).1 =
      if (manager.compareSet store call.taskId pending.expectedRevision pending.state now).1 = true then
        .returned pending.state
      else (manager.complete now fuel
        (manager.compareSet store call.taskId pending.expectedRevision pending.state now).2
        { call with phase := pending.refused }).1 := by
  rw [complete, advance, quiet, write, Option.map_some, AgentSharedStateManager.write]
  dsimp only
  by_cases stored : (manager.compareSet store call.taskId pending.expectedRevision pending.state
      now).1 = true
  · rw [if_pos stored, if_pos stored]
  · rw [if_neg stored, if_neg stored]

/-- A write is stored exactly when the revision is the expected one and the state fits. -/
theorem compareSet_iff {expected : Int} {state : SharedState V} :
    (manager.compareSet store taskId expected state now).1 = true ↔
      (store.getJson (stateKey taskId) now).1.elim (-1) (fun current => (current.revision : Int)) =
        expected ∧ manager.codec.bytes state ≤ store.maxValueBytes :=
  ValueStore.compareSetJson_iff

/-- A prepared refresh is refused if the state does not fit. -/
theorem storing_raises (fuel : Nat) {request : SharedRequest V} {current state : SharedState V}
    (live : (store.getJson (stateKey taskId) now).1 = some current) :
    (manager.complete now (fuel + 1) store ⟨taskId, request, .storing current.revision state⟩).1.raises =
      decide (store.maxValueBytes < manager.codec.bytes state) := by
  have write : writing ⟨taskId, request, .storing current.revision state⟩ =
      some ⟨current.revision, state, .raised (lostRace request)⟩ := rfl
  rw [complete_writing fuel rfl write]
  by_cases fits : manager.codec.bytes state ≤ store.maxValueBytes
  · have stored : (manager.compareSet store taskId current.revision state now).1 = true :=
      compareSet_iff.mpr ⟨by rw [live, Option.elim_some], fits⟩
    rw [if_pos stored]
    simp [CallPhase.raises, fits]
  · have refused : (manager.compareSet store taskId current.revision state now).1 ≠ true :=
      fun stored => fits (compareSet_iff.mp stored).2
    rw [if_neg refused, complete_ended fuel rfl]
    simp [CallPhase.raises, not_le.mp fits]

/-- A refresh of a settled state raises for its revision or its size, never for its version. -/
theorem syncing_raises (fuel : Nat) {call : SharedCall V} {current : SharedState V} {snapshot : Snapshot}
    (live : (store.getJson (stateKey call.taskId) now).1 = some current)
    (settled : encoding.Settled label call.taskId current) (labelled : snapshot.label = label)
    (successful : label.1 = some "success") {expected : Int}
    (read : manager.reading store now call =
      some (manager.beginSync store call.taskId now expected (encoding.encode snapshot))) :
    (manager.complete now (fuel + 2) store call).1.raises = (expected ≠ current.revision ||
      (manager.codec.hashValue (current.content .routePlan) ≠
          manager.codec.hashValue (encoding.encode snapshot) &&
        manager.oversized store
          (manager.refreshedState current (encoding.encode snapshot) now))) := by
  rw [complete_reading (fuel + 1) read, ValueStore.getJson_live live,
    beginSync_live live settled labelled successful]
  by_cases matched : (current.revision : Int) = expected
  · subst matched
    by_cases same : manager.codec.hashValue (current.content .routePlan) =
        manager.codec.hashValue (encoding.encode snapshot)
    · rw [if_neg (by simp), if_pos same, complete_ended (fuel + 1) rfl]
      simp [CallPhase.raises, same]
    · rw [if_neg (by simp), if_neg same]
      unfold serialized
      by_cases large : manager.maxBytes < manager.codec.bytes (manager.codec.sealState
          (manager.refreshedState current (encoding.encode snapshot) now))
      · rw [if_pos large, prepared, complete_ended (fuel + 1) rfl]
        simp [CallPhase.raises, oversized, same, large]
      · rw [if_neg large, prepared, storing_raises fuel live]
        simp [oversized, same, large]
  · rw [if_pos matched, complete_ended (fuel + 1) rfl]
    simp [CallPhase.raises, ne_comm.mp matched]

/-- Without a state, the first one is refused if it does not fit. -/
theorem creating_raises {request : SharedRequest V} {state : SharedState V}
    (gone : (store.getJson (stateKey taskId) now).1 = none) :
    (manager.complete now 2 store ⟨taskId, request, .creating state⟩).1.raises =
      decide (store.maxValueBytes < manager.codec.bytes state) := by
  have write : writing ⟨taskId, request, .creating state⟩ = some ⟨-1, state, .rereading⟩ := rfl
  rw [complete_writing 1 rfl write]
  by_cases fits : manager.codec.bytes state ≤ store.maxValueBytes
  · have stored : (manager.compareSet store taskId (-1) state now).1 = true :=
      compareSet_iff.mpr ⟨by rw [gone, Option.elim_none], fits⟩
    rw [if_pos stored]
    simp [CallPhase.raises, fits]
  · have refused : (manager.compareSet store taskId (-1) state now).1 ≠ true :=
      fun stored => fits (compareSet_iff.mp stored).2
    have absent : manager.reread (manager.compareSet store taskId (-1) state now).2 taskId now =
        .raised (.conflict "shared state initialization was not stored") := by
      have still : ((manager.compareSet store taskId (-1) state now).2.getJson (stateKey taskId)
          now).1 = none :=
        (ValueStore.getJson_compareSetJson_refused (Bool.of_not_eq_true refused)).trans gone
      simp only [reread, AgentSharedStateManager.read, still]
    rw [if_neg refused]
    rw [complete_reading 0 rfl, absent, complete_ended 0 rfl]
    simp [CallPhase.raises, not_le.mp fits]

end AgentSharedStateManager

section
variable {snapshot : Snapshot}

theorem sync_raises (keeps : encoding.Keeps label store) (labelled : snapshot.label = label)
    (successful : label.1 = some "success") (expected : Int) :
    (manager.perform store now taskId
      (.syncFormalRoutePlan expected (encoding.encode snapshot))).1.raises =
        manager.refuses store now taskId (encoding.encode snapshot) (.sync expected) := by
  unfold AgentSharedStateManager.refuses AgentSharedStateManager.perform
  cases live : (store.getJson (stateKey taskId) now).1 with
  | none =>
      have status : manager.codec.status (encoding.encode snapshot) = some "success" :=
        AgentSharedStateManager.status_of_label labelled successful
      have absent : manager.beginSync store taskId now expected (encoding.encode snapshot) =
          .raised (.notFound ("shared state not found: " ++ taskId)) := by
        simp [AgentSharedStateManager.beginSync, status, AgentSharedStateManager.read, live]
      rw [AgentSharedStateManager.complete_reading 2 rfl]
      dsimp only
      rw [absent, AgentSharedStateManager.complete_ended 2 rfl]
      rfl
  | some current =>
      exact AgentSharedStateManager.syncing_raises 1 live (keeps.live live) labelled successful rfl

theorem initialization_raises (keeps : encoding.Keeps label store)
    (labelled : snapshot.label = label) (successful : label.1 = some "success")
    (fits : 8 ≤ taskId.length ∧ taskId.length ≤ 128) :
    (manager.perform store now taskId
      (.initialization (some (encoding.encode snapshot)))).1.raises =
        manager.refuses store now taskId (encoding.encode snapshot) .initialization := by
  unfold AgentSharedStateManager.refuses AgentSharedStateManager.perform
  rw [AgentSharedStateManager.complete_reading 2 rfl]
  dsimp only
  cases live : (store.getJson (stateKey taskId) now).1 with
  | none =>
      have status : manager.codec.status (encoding.encode snapshot) = some "success" :=
        AgentSharedStateManager.status_of_label labelled successful
      by_cases large : manager.maxBytes < manager.codec.bytes (manager.codec.sealState
          (manager.firstState taskId (some (encoding.encode snapshot)) now))
      · have began : manager.beginInitialize store taskId now (some (encoding.encode snapshot)) =
            .raised (.state "shared state exceeds configured byte limit") := by
          simp [AgentSharedStateManager.beginInitialize, live, AgentSharedStateManager.initialState,
            status, AgentSharedStateManager.finish_first fits, AgentSharedStateManager.serialized,
            large]
        rw [began, AgentSharedStateManager.complete_ended 2 rfl]
        simp [CallPhase.raises, AgentSharedStateManager.oversized, large]
      · have began : manager.beginInitialize store taskId now (some (encoding.encode snapshot)) =
            .creating (manager.codec.sealState
              (manager.firstState taskId (some (encoding.encode snapshot)) now)) := by
          simp [AgentSharedStateManager.beginInitialize, live, AgentSharedStateManager.initialState,
            status, AgentSharedStateManager.finish_first fits, AgentSharedStateManager.serialized,
            large]
        rw [began, AgentSharedStateManager.creating_raises (ValueStore.getJson_gone live),
          ValueStore.getJson_maxValueBytes]
        simp [AgentSharedStateManager.oversized, large]
  | some current =>
      have settled := keeps.live live
      have began : manager.beginInitialize store taskId now (some (encoding.encode snapshot)) =
          if manager.codec.hashValue (current.content .routePlan) ≠
              manager.codec.hashValue (encoding.encode snapshot) then
            .syncing current.revision (encoding.encode snapshot)
          else .returned current := by
        simp [AgentSharedStateManager.beginInitialize, live, settled.stored.sealed.verified]
      rw [began, ValueStore.getJson_live live]
      by_cases same : manager.codec.hashValue (current.content .routePlan) =
          manager.codec.hashValue (encoding.encode snapshot)
      · rw [if_neg (not_not.mpr same), AgentSharedStateManager.complete_ended 2 rfl]
        simp [CallPhase.raises, PlanCall.expects, same]
      · rw [if_pos same, AgentSharedStateManager.syncing_raises 0 live settled labelled successful rfl]
        rfl

/-- A call that passes the snapshot of a run to settled states raises exactly when it finds another
revision than it expects, or when its state does not fit. -/
theorem perform_raises (keeps : encoding.Keeps label store) (labelled : snapshot.label = label)
    (successful : label.1 = some "success") (fits : 8 ≤ taskId.length ∧ taskId.length ≤ 128)
    (call : PlanCall) :
    (manager.perform store now taskId (call.request (encoding.encode snapshot))).1.raises =
      manager.refuses store now taskId (encoding.encode snapshot) call := by
  cases call with
  | initialization => exact initialization_raises keeps labelled successful fits
  | sync expected => exact sync_raises keeps labelled successful expected

end
/-- The stored states are settled, and what was stored comes from successful plans. -/
structure FormalRun.Sound (encoding : PlanEncoding manager.codec)
    (label : Option String × Option Nat) (s : FormalRun V) : Prop where
  plans : s.plans.Labelled label
  keeps : encoding.Keeps label s.store
  stored : ∀ entry ∈ s.stored, label.1 = some "success" ∧ 8 ≤ entry.1.length ∧ entry.1.length ≤ 128

namespace FormalRun.Sound
variable {s t : FormalRun V}

theorem pass (sound : s.Sound encoding label) {row : PlanVersion} (held : row.snapshot.label = label)
    (taskId : String) (call : PlanCall) : (s.pass manager encoding taskId row call).Sound encoding label := by
  have passed : (call.request (encoding.encode row.snapshot)).plan =
      some (encoding.encode row.snapshot) := by cases call <;> rfl
  have passes : encoding.Passes label (call.request (encoding.encode row.snapshot)) :=
    .inr ⟨row.snapshot, held, passed⟩
  obtain ⟨keeps, written⟩ := AgentSharedStateManager.perform_keeps sound.keeps passes
  refine ⟨sound.plans, keeps, fun entry member => ?_⟩
  rcases List.mem_append.mp member with before | last
  · exact sound.stored entry before
  · obtain ⟨state, wrote, rfl⟩ := Option.map_eq_some_iff.mp (Option.mem_toList.mp last)
    obtain ⟨settled, successful⟩ := written state wrote
    refine ⟨successful (by rw [passed]; rfl), ?_⟩
    have lengths := (StateCodec.validate_ok_iff.mp settled.stored.sealed.valid).2.1
    rwa [settled.stored.task] at lengths

theorem step (sound : s.Sound encoding label) {action : FormalAction V}
    (stepped : s.step manager encoding action = some t) : t.Sound encoding label := by
  cases action with
  | plan action =>
      obtain ⟨plans, planned, rfl⟩ := Option.map_eq_some_iff.mp stepped
      exact ⟨sound.plans.step planned, sound.keeps, sound.stored⟩
  | pass taskId version call =>
      obtain ⟨row, found, rfl⟩ := Option.map_eq_some_iff.mp stepped
      exact sound.pass (sound.plans.versions row (List.mem_of_find?_eq_some found)) taskId call
  | other taskId request =>
      simp only [FormalRun.step] at stepped
      split at stepped
      · rename_i kept
        cases stepped
        have passes : encoding.Passes label request := .inl kept
        exact ⟨sound.plans, (AgentSharedStateManager.perform_keeps sound.keeps passes).1, sound.stored⟩
      · contradiction
  | wait seconds =>
      cases stepped
      exact ⟨sound.plans, sound.keeps, sound.stored⟩

/-- A step keeps the order of the plans exactly when it meets the condition. -/
theorem forward_step (sound : s.Sound encoding label) {action : FormalAction V}
    (stepped : s.step manager encoding action = some t) :
    t.Forward ↔ s.Forward ∧ s.holdsBack manager encoding action = true := by
  cases action with
  | plan action =>
      obtain ⟨plans, -, rfl⟩ := Option.map_eq_some_iff.mp stepped
      exact (and_iff_left rfl).symm
  | other taskId request =>
      simp only [FormalRun.step] at stepped
      split at stepped
      · cases stepped
        exact (and_iff_left rfl).symm
      · contradiction
  | wait seconds =>
      cases stepped
      exact (and_iff_left rfl).symm
  | pass taskId version call =>
      obtain ⟨row, found, rfl⟩ := Option.map_eq_some_iff.mp stepped
      have number : row.version = version := by simpa using List.find?_some found
      subst number
      have held := sound.plans.versions row (List.mem_of_find?_eq_some found)
      have last : (s.pass manager encoding taskId row call).Forward ↔ s.Forward ∧
          ((s.storedVersions taskId).any (fun stored => row.version < stored) = true →
            (manager.perform s.store s.now taskId
              (call.request (encoding.encode row.snapshot))).1.raises = true) := by
        simp only [FormalRun.Forward, FormalRun.pass, List.forall_mem_append, List.forall_mem_singleton,
          FormalCall.overtaken]
      rw [last, FormalRun.holdsBack, found]
      by_cases overtaken : (s.storedVersions taskId).any (fun stored => row.version < stored) = true
      · obtain ⟨later, member, -⟩ := List.any_eq_true.mp overtaken
        obtain ⟨entry, kept, rfl⟩ := List.mem_map.mp member
        obtain ⟨entryStored, same⟩ := List.mem_filter.mp kept
        obtain ⟨successful, lengths⟩ := sound.stored entry entryStored
        rw [of_decide_eq_true same] at lengths
        rw [perform_raises sound.keeps held successful lengths]
        simp [overtaken]
      · simp [overtaken]

end FormalRun.Sound

theorem forward_run {actions : List (FormalAction V)} {start s : FormalRun V}
    (sound : start.Sound encoding label)
    (ran : (formalMachine manager encoding).run start actions = some s) :
    s.Forward ↔ start.Forward ∧ (formalMachine manager encoding).along
      (fun s action => s.holdsBack manager encoding action) start actions = true := by
  induction actions generalizing start with
  | nil =>
      cases Option.some.inj ran
      exact (and_iff_left rfl).symm
  | cons action rest ih =>
      obtain ⟨middle, stepped, ran⟩ := Option.bind_eq_some_iff.mp ran
      rw [ih (sound.step stepped) ran, sound.forward_step stepped, Machine.along, stepped]
      simp only [Bool.and_eq_true, and_assoc]

/-- Along a run, snapshots of older versions are rejected exactly when each call that passes one finds
another revision than it expects or a state that does not fit: the version itself stops none. -/
theorem formal_plan_forward {start s : FormalRun V} {actions : List (FormalAction V)}
    (begun : (formalMachine manager encoding).initial start)
    (ran : (formalMachine manager encoding).run start actions = some s) :
    s.Forward ↔ (formalMachine manager encoding).along
      (fun s action => s.holdsBack manager encoding action) start actions = true := by
  obtain ⟨plans, ⟨snapshot, reason, rfl⟩, rfl⟩ := begun
  have sound : FormalRun.Sound encoding snapshot.label
      { plans := { versions := [⟨1, snapshot, reason⟩] } } := by
    constructor
    case plans =>
      refine ⟨fun row member => ?_, fun attempt member => absurd member List.not_mem_nil⟩
      rw [List.mem_singleton.mp member]
    case keeps =>
      intro taskId state held
      simp [ValueStore.value, ValueStore.find] at held
    case stored => exact fun entry member => absurd member List.not_mem_nil
  rw [forward_run sound ran]
  exact and_iff_right fun call member => absurd member List.not_mem_nil

end

/-- A state holds a snapshot or nothing; two snapshots of the run differ by their algorithms. -/
def snapshotCodec : StateCodec (Option Snapshot) where
  default _ := none
  parse _ value := some value
  status value := value.bind Snapshot.status
  planVersion value := some ((value.bind Snapshot.planVersion).getD 0 : Nat)
  hashValue value := (value.bind Snapshot.algorithm).getD ""
  hashChanges changes := toString changes.length
  hashState state := toString state.revision ++ state.phase.value
  bytes state := state.executionHistory.length
  parse_default _ := rfl
  parse_parsed _ _ _ _ := rfl

def snapshotEncoding : PlanEncoding snapshotCodec where
  encode := some
  status_encode _ := rfl
  planVersion_encode _ := rfl
  planVersion_default := rfl
  parse_encode _ := rfl

def snapshotManager : AgentSharedStateManager (Option Snapshot) := { codec := snapshotCodec }

def museumStart : FormalRun (Option Snapshot) where
  plans := { versions :=
    [⟨1, { museumPlan with status := some "success", planVersion := some 1 }, "initial_plan"⟩] }

/-- The second version is accepted and stored; then the first one is passed again. -/
def regressingCalls (call : PlanCall) : List (FormalAction (Option Snapshot)) :=
  [.plan (.createPatch 1 [.moveStop (some 0) (some 1)] "换序" {}), .plan (.begin .accept 1)] ++
    List.replicate 5 (.plan (.advance 0 evenProvider)) ++
    [.pass "trip-1-state" 2 .initialization, .pass "trip-1-state" 1 call]

theorem museumStart_initial :
    (formalMachine snapshotManager snapshotEncoding).initial museumStart :=
  ⟨_, ⟨_, _, rfl⟩, rfl⟩

/-- The snapshot of version 1 replaces that of version 2. -/
theorem formal_plan_regresses : ∃ s, (formalMachine snapshotManager snapshotEncoding).run museumStart
    (regressingCalls .initialization) = some s ∧ ¬ s.Forward := by
  have ran : ∃ s, (formalMachine snapshotManager snapshotEncoding).run museumStart
      (regressingCalls .initialization) = some s ∧
        (s.calls.any fun call => call.overtaken && !call.outcome.raises) = true := by decide +kernel
  obtain ⟨s, ran, accepted⟩ := ran
  obtain ⟨call, member, passed⟩ := List.any_eq_true.mp accepted
  rw [Bool.and_eq_true, Bool.not_eq_true'] at passed
  exact ⟨s, ran, fun forward => Bool.false_ne_true
    (passed.2.symm.trans (forward call member passed.1))⟩

theorem formal_plan_forward_stale : ∃ s, (formalMachine snapshotManager snapshotEncoding).run
    museumStart (regressingCalls (.sync 3)) = some s ∧ s.Forward := by
  have ran : ∃ s, (formalMachine snapshotManager snapshotEncoding).run museumStart
      (regressingCalls (.sync 3)) = some s ∧ s.stored = [("trip-1-state", 2)] := by decide +kernel
  obtain ⟨s, ran, -⟩ := ran
  exact ⟨s, ran, (formal_plan_forward museumStart_initial ran).mpr (by decide +kernel)⟩

end MapGo.Shared
