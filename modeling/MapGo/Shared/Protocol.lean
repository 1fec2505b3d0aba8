import MapGo.Transition
import MapGo.Shared.State

/-! Clients of the shared states over the in-memory store. Every call reads, prepares and stores in
separate steps, and any number of calls interleave; the history keeps every state that was stored. -/
namespace MapGo.Shared

open Transition MapGo.Runtime

inductive SharedRequest (V : Type) where
  | initialization (routePlan : Option V)
  | syncFormalRoutePlan (expectedRevision : Int) (routePlan : V)
  | update (actor : AgentType) (expectedRevision : Int) (action : String)
      (changes : List (String × V)) (messageId : Option String)
  | read

/-- What a call is about to do, or how it has ended. -/
inductive CallPhase (V : Type) where
  | begun
  | creating (state : SharedState V)
  | rereading
  | syncing (expectedRevision : Int) (routePlan : V)
  | storing (expectedRevision : Int) (state : SharedState V)
  | returned (state : SharedState V)
  | raised (error : SharedStateError)

structure SharedCall (V : Type) where
  taskId : String
  request : SharedRequest V
  phase : CallPhase V

structure SharedWrite (V : Type) where
  call : Nat
  taskId : String
  state : SharedState V

structure SharedRun (V : Type) where
  now : Nat := 0
  store : ValueStore (SharedState V) := {}
  calls : List (SharedCall V) := []
  /-- History: every stored state with its call. -/
  writes : List (SharedWrite V) := []

inductive SharedAction (V : Type) where
  | call (taskId : String) (request : SharedRequest V)
  | advance (index : Nat)
  | wait (seconds : Nat)

/-- `AgentSharedStateManager.key` -/
def stateKey (taskId : String) : String := "agent-shared-state:v1:" ++ taskId

theorem stateKey_injective {a b : String} (same : stateKey a = stateKey b) : a = b := by
  unfold stateKey at same
  have chars := congrArg String.toList same
  rw [String.toList_append, String.toList_append] at chars
  exact String.toList_injective ((List.append_right_inj _).mp chars)

namespace AgentSharedStateManager
variable {V : Type} (manager : AgentSharedStateManager V)

/-- One step of a call: its next phase, the store and the state that it has stored. -/
abbrev Step (V : Type) := CallPhase V × ValueStore (SharedState V) × Option (SharedState V)

/-- `read` -/
def read (store : ValueStore (SharedState V)) (taskId : String) (now : Nat) :
    Except SharedStateError (SharedState V) :=
  match (store.getJson (stateKey taskId) now).1 with
  | none => .error (.notFound ("shared state not found: " ++ taskId))
  | some raw => manager.codec.verified raw

/-- The phase after a preparation. -/
def prepared (expectedRevision : Int) : Except SharedStateError (SharedState V) → CallPhase V
  | .error error => .raised error
  | .ok state => .storing expectedRevision state

/-- `initialize` up to its first write. -/
def beginInitialize (store : ValueStore (SharedState V)) (taskId : String) (now : Nat)
    (routePlan : Option V) : CallPhase V :=
  match (store.getJson (stateKey taskId) now).1 with
  | some raw => match manager.codec.verified raw with
    | .error error => .raised error
    | .ok state => match routePlan with
      | none => .returned state
      | some plan =>
          if manager.codec.hashValue (state.content .routePlan) ≠ manager.codec.hashValue plan then
            .syncing state.revision plan
          else .returned state
  | none => match manager.initialState taskId routePlan now with
    | .error error => .raised error
    | .ok state => .creating state

/-- `sync_formal_route_plan` up to its write. -/
def beginSync (store : ValueStore (SharedState V)) (taskId : String) (now : Nat)
    (expectedRevision : Int) (routePlan : V) : CallPhase V :=
  if manager.codec.status routePlan ≠ some "success" then
    .raised (.access "only a successful formal plan can refresh trip state")
  else match manager.read store taskId now with
    | .error error => .raised error
    | .ok current => match manager.preparePlan current expectedRevision routePlan now with
      | .error error => .raised error
      | .ok none => .returned current
      | .ok (some updated) => .storing expectedRevision updated

/-- `update` up to its write. -/
def beginUpdate (store : ValueStore (SharedState V)) (taskId : String) (now : Nat)
    (actor : AgentType) (expectedRevision : Int) (action : String) (changes : List (String × V))
    (messageId : Option String) : CallPhase V :=
  match authorize actor action changes with
  | .error error => .raised error
  | .ok _ => match manager.read store taskId now with
    | .error error => .raised error
    | .ok current => prepared expectedRevision
        (manager.prepareUpdate current actor expectedRevision action changes messageId now)

def ended : Except SharedStateError (SharedState V) → CallPhase V
  | .error error => .raised error
  | .ok state => .returned state

/-- The read after a lost initialization. -/
def reread (store : ValueStore (SharedState V)) (taskId : String) (now : Nat) : CallPhase V :=
  match manager.read store taskId now with
  | .error (.notFound _) => .raised (.conflict "shared state initialization was not stored")
  | .error error => .raised error
  | .ok state => .returned state

def lostRace : SharedRequest V → SharedStateError
  | .update .. => .conflict "shared state changed concurrently"
  | _ => .conflict "shared state changed during formal plan refresh"

def compareSet (store : ValueStore (SharedState V)) (taskId : String) (expectedRevision : Int)
    (state : SharedState V) (now : Nat) : Bool × ValueStore (SharedState V) :=
  store.compareSetJson (fun state => state.revision) (stateKey taskId) expectedRevision state
    (manager.codec.bytes state) now manager.ttlSeconds

/-- The phase after a step that only reads. -/
def reading (store : ValueStore (SharedState V)) (now : Nat) (call : SharedCall V) :
    Option (CallPhase V) :=
  match call.phase with
  | .begun => some <| match call.request with
    | .initialization plan => manager.beginInitialize store call.taskId now plan
    | .syncFormalRoutePlan expected plan => manager.beginSync store call.taskId now expected plan
    | .update actor expected action changes messageId =>
        manager.beginUpdate store call.taskId now actor expected action changes messageId
    | .read => ended (manager.read store call.taskId now)
  | .syncing expected plan => some (manager.beginSync store call.taskId now expected plan)
  | .rereading => some (manager.reread store call.taskId now)
  | _ => none

/-- A write that a call is about to make, and the phase after a refusal. -/
structure PendingWrite (V : Type) where
  expectedRevision : Int
  state : SharedState V
  refused : CallPhase V

def writing (call : SharedCall V) : Option (PendingWrite V) :=
  match call.phase with
  | .creating state => some ⟨-1, state, .rereading⟩
  | .storing expected state => some ⟨expected, state, .raised (lostRace call.request)⟩
  | _ => none

def write (store : ValueStore (SharedState V)) (taskId : String) (now : Nat)
    (pending : PendingWrite V) : Step V :=
  let outcome := manager.compareSet store taskId pending.expectedRevision pending.state now
  if outcome.1 then (.returned pending.state, outcome.2, some pending.state)
  else (pending.refused, outcome.2, none)

theorem write_store (store : ValueStore (SharedState V)) (taskId : String) (now : Nat)
    (pending : PendingWrite V) : (manager.write store taskId now pending).2.1 =
      (manager.compareSet store taskId pending.expectedRevision pending.state now).2 := by
  unfold write
  dsimp only
  split <;> rfl

def advance (store : ValueStore (SharedState V)) (now : Nat) (call : SharedCall V) :
    Option (Step V) :=
  match manager.reading store now call with
  | some phase => some (phase, (store.getJson (stateKey call.taskId) now).2, none)
  | none => (writing call).map (manager.write store call.taskId now)

variable {manager} in
/-- Only a write that was stored returns what it has stored. -/
theorem advance_written {store : ValueStore (SharedState V)} {now : Nat} {call : SharedCall V}
    {step : Step V} (moved : manager.advance store now call = some step) :
    ∀ state, step.2.2 = some state → step.1 = .returned state := by
  unfold advance at moved
  split at moved
  · cases moved
    nofun
  · obtain ⟨pending, -, rfl⟩ := Option.map_eq_some_iff.mp moved
    unfold write
    dsimp only
    split
    · rintro state ⟨⟩
      rfl
    · nofun

end AgentSharedStateManager

namespace SharedRun
variable {V : Type}

def apply (s : SharedRun V) (index : Nat) (call : SharedCall V)
    (step : AgentSharedStateManager.Step V) : SharedRun V where
  now := s.now
  store := step.2.1
  calls := s.calls.set index { call with phase := step.1 }
  writes := s.writes ++ (step.2.2.map fun state => ⟨index, call.taskId, state⟩).toList

/-- The states that were stored for a task, in order. -/
def states (s : SharedRun V) (taskId : String) : List (SharedState V) :=
  (s.writes.filter fun write => write.taskId = taskId).map SharedWrite.state

end SharedRun

/-- Any number of calls on any tasks. -/
def sharedMachine {V : Type} (manager : AgentSharedStateManager V) :
    Machine (SharedRun V) (SharedAction V) where
  initial s := s = {}
  step s
    | .call taskId request => some { s with calls := s.calls ++ [⟨taskId, request, .begun⟩] }
    | .advance index => (s.calls[index]?).bind fun call =>
        (manager.advance s.store s.now call).map fun step => s.apply index call step
    | .wait seconds => some { s with now := s.now + seconds }

/-- The state of a task has not expired, and the step does not evict it. -/
def retains {V : Type} (manager : AgentSharedStateManager V) (taskId : String) (s : SharedRun V)
    (action : SharedAction V) : Bool :=
  s.store.fresh (stateKey taskId) s.now &&
    match (sharedMachine manager).step s action with
    | none => true
    | some t => !(s.store.find (stateKey taskId)).isSome || (t.store.find (stateKey taskId)).isSome

section
variable {V : Type} {manager : AgentSharedStateManager V} {taskId : String}

/-- What a call has prepared: a first state, or the successor of a state that was stored. -/
def CallPhase.Ready (manager : AgentSharedStateManager V) (taskId : String)
    (log : List (SharedState V)) : CallPhase V → Prop
  | .creating state => manager.Stored taskId state ∧ state.revision = 0
  | .storing expected state => ∃ base ∈ log, (base.revision : Int) = expected ∧
      manager.Stored taskId state ∧ manager.Successor base state
  | _ => True

theorem CallPhase.Ready.mono {log more : List (SharedState V)} {phase : CallPhase V}
    (ready : phase.Ready manager taskId log) (grown : log ⊆ more) :
    phase.Ready manager taskId more := by
  cases phase with
  | storing expected state =>
      obtain ⟨base, member, rest⟩ := ready
      exact ⟨base, grown member, rest⟩
  | creating state => exact ready
  | _ => trivial

/-- The stored states of a task, numbered by their revisions and each the successor of the one
before; the store holds the last one. -/
structure SharedRun.Ordered (manager : AgentSharedStateManager V) (taskId : String)
    (s : SharedRun V) : Prop where
  current : s.store.value (stateKey taskId) = (s.states taskId).getLast?
  numbered : (s.states taskId).map SharedState.revision = List.range (s.states taskId).length
  stored : ∀ state ∈ s.states taskId, manager.Stored taskId state
  chained : (s.states taskId).IsChain manager.Successor
  ready : ∀ call ∈ s.calls, call.taskId = taskId → call.phase.Ready manager taskId (s.states taskId)

namespace SharedRun.Ordered
variable {s : SharedRun V}

theorem same_revision (ordered : s.Ordered manager taskId) {a b : SharedState V}
    (left : a ∈ s.states taskId) (right : b ∈ s.states taskId) (same : a.revision = b.revision) :
    a = b := by
  refine List.inj_on_of_nodup_map (f := SharedState.revision) ?_ left right same
  rw [ordered.numbered]
  exact List.nodup_range

/-- A read returns the state that was stored last, and never fails its checks. -/
theorem getJson (ordered : s.Ordered manager taskId)
    (live : s.store.fresh (stateKey taskId) s.now = true) :
    (s.store.getJson (stateKey taskId) s.now).1 = (s.states taskId).getLast? :=
  (ValueStore.getJson_value live).trans ordered.current

theorem verified (ordered : s.Ordered manager taskId) {raw : SharedState V}
    (last : (s.states taskId).getLast? = some raw) :
    raw ∈ s.states taskId ∧ manager.codec.verified raw = .ok raw := by
  have member := List.mem_of_getLast? last
  exact ⟨member, (ordered.stored raw member).sealed.verified⟩

theorem read_mem (ordered : s.Ordered manager taskId)
    (live : s.store.fresh (stateKey taskId) s.now = true) {state : SharedState V}
    (found : manager.read s.store taskId s.now = .ok state) : state ∈ s.states taskId := by
  unfold AgentSharedStateManager.read at found
  rw [ordered.getJson live] at found
  split at found
  · contradiction
  · rename_i raw last
    obtain ⟨member, same⟩ := ordered.verified last
    rw [same] at found
    cases found
    exact member

theorem beginSync (ordered : s.Ordered manager taskId)
    (live : s.store.fresh (stateKey taskId) s.now = true) (expected : Int) (plan : V) :
    (manager.beginSync s.store taskId s.now expected plan).Ready manager taskId
      (s.states taskId) := by
  unfold AgentSharedStateManager.beginSync
  split
  · trivial
  · split
    · trivial
    · rename_i state found
      have member := ordered.read_mem live found
      split
      · trivial
      · trivial
      · rename_i next refreshed
        obtain ⟨matched, rest⟩ := AgentSharedStateManager.preparePlan_ok (ordered.stored state member)
          refreshed
        exact ⟨state, member, matched, rest⟩

theorem beginUpdate (ordered : s.Ordered manager taskId)
    (live : s.store.fresh (stateKey taskId) s.now = true) (actor : AgentType) (expected : Int)
    (action : String) (changes : List (String × V)) (messageId : Option String) :
    (manager.beginUpdate s.store taskId s.now actor expected action changes messageId).Ready manager
      taskId (s.states taskId) := by
  unfold AgentSharedStateManager.beginUpdate
  split
  · trivial
  · rename_i authorized
    split
    · trivial
    · rename_i state found
      have member := ordered.read_mem live found
      cases updated : manager.prepareUpdate state actor expected action changes messageId s.now with
      | error error => trivial
      | ok next =>
          obtain ⟨matched, rest⟩ := AgentSharedStateManager.prepareUpdate_ok
            (ordered.stored state member) authorized updated
          exact ⟨state, member, matched, rest⟩

omit s in
theorem beginInitialize (store : ValueStore (SharedState V)) (now : Nat) (plan : Option V)
    (log : List (SharedState V)) :
    (manager.beginInitialize store taskId now plan).Ready manager taskId log := by
  unfold AgentSharedStateManager.beginInitialize
  split
  · split
    · trivial
    · split
      · trivial
      · split <;> trivial
  · split
    · trivial
    · rename_i initialized
      exact AgentSharedStateManager.initialState_ok initialized

/-- What a step that reads prepares. -/
theorem reading (ordered : s.Ordered manager taskId)
    (live : s.store.fresh (stateKey taskId) s.now = true) {call : SharedCall V}
    (task : call.taskId = taskId) {phase : CallPhase V}
    (read : manager.reading s.store s.now call = some phase) :
    phase.Ready manager taskId (s.states taskId) := by
  subst task
  unfold AgentSharedStateManager.reading at read
  split at read
  · cases Option.some.inj read
    split
    · exact beginInitialize ..
    · exact ordered.beginSync live _ _
    · exact ordered.beginUpdate live _ _ _ _ _
    · cases manager.read s.store call.taskId s.now <;> trivial
  · cases Option.some.inj read
    exact ordered.beginSync live _ _
  · cases Option.some.inj read
    unfold AgentSharedStateManager.reread
    split <;> trivial
  · contradiction

/-- A write that a call has prepared is of the next state: nothing was stored in between. -/
theorem follows (ordered : s.Ordered manager taskId) {call : SharedCall V}
    (ready : call.phase.Ready manager taskId (s.states taskId))
    {pending : AgentSharedStateManager.PendingWrite V}
    (write : AgentSharedStateManager.writing call = some pending)
    (matched : ((s.states taskId).getLast?).elim (-1) (fun state => (state.revision : Int)) =
      pending.expectedRevision) :
    manager.Stored taskId pending.state ∧ pending.state.revision = (s.states taskId).length ∧
      ∀ last, (s.states taskId).getLast? = some last → manager.Successor last pending.state := by
  unfold AgentSharedStateManager.writing at write
  cases phase : call.phase with
  | creating state =>
      simp only [phase, Option.some.injEq] at write ready
      subst write
      obtain ⟨stored, first⟩ := ready
      cases last : (s.states taskId).getLast? with
      | none =>
          refine ⟨stored, ?_, nofun⟩
          rw [List.getLast?_eq_none_iff.mp last]
          exact first
      | some state =>
          simp only [last, Option.elim_some] at matched
          omega
  | storing expected state =>
      simp only [phase, Option.some.injEq] at write ready
      subst write
      obtain ⟨base, member, revision, stored, successor⟩ := ready
      cases last : (s.states taskId).getLast? with
      | none =>
          rw [List.getLast?_eq_none_iff.mp last] at member
          contradiction
      | some top =>
          simp only [last, Option.elim_some] at matched
          have same : top = base := ordered.same_revision (List.mem_of_getLast? last) member (by omega)
          have length : base.revision + 1 = (s.states taskId).length := by
            have final := congrArg List.getLast? ordered.numbered
            rw [List.getLast?_map, last, same, List.getLast?_range] at final
            split at final
            · contradiction
            · simp only [Option.map_some, Option.some.injEq] at final
              omega
          refine ⟨stored, successor.revision.trans length, fun other equal => ?_⟩
          cases equal
          exact same ▸ successor
  | _ => simp [phase] at write

theorem states_apply (s : SharedRun V) (index : Nat) (call : SharedCall V)
    (step : AgentSharedStateManager.Step V) : (s.apply index call step).states taskId =
      s.states taskId ++ if call.taskId = taskId then step.2.2.toList else [] := by
  simp only [SharedRun.states, SharedRun.apply, List.filter_append, List.map_append]
  congr 1
  cases step.2.2 with
  | none => simp
  | some state =>
      by_cases task : call.taskId = taskId <;> simp [task]

/-- A step that stores nothing for the task. -/
theorem unchanged (ordered : s.Ordered manager taskId) (index : Nat) (call : SharedCall V)
    (step : AgentSharedStateManager.Step V) (silent : call.taskId = taskId → step.2.2 = none)
    (kept : step.2.1.find (stateKey taskId) = s.store.find (stateKey taskId))
    (ready : call.taskId = taskId → step.1.Ready manager taskId (s.states taskId)) :
    (s.apply index call step).Ordered manager taskId := by
  have same : (s.apply index call step).states taskId = s.states taskId := by
    rw [states_apply]
    split
    · rename_i task
      rw [silent task]
      exact List.append_nil _
    · exact List.append_nil _
  constructor
  case current =>
    rw [same, ← ordered.current]
    exact congrArg (Option.map StoredValue.value) kept
  case numbered => exact same ▸ ordered.numbered
  case stored => exact same ▸ ordered.stored
  case chained => exact same ▸ ordered.chained
  case ready =>
    rw [same]
    intro other member task
    rcases List.mem_or_eq_of_mem_set member with before | rfl
    · exact ordered.ready other before task
    · exact ready task

/-- A successful write of a call on the task extends the order. -/
theorem extended (ordered : s.Ordered manager taskId) (index : Nat) {call : SharedCall V}
    (task : call.taskId = taskId) {store : ValueStore (SharedState V)} {state : SharedState V}
    (value : store.value (stateKey taskId) = some state) (stored : manager.Stored taskId state)
    (revision : state.revision = (s.states taskId).length)
    (successor : ∀ last, (s.states taskId).getLast? = some last → manager.Successor last state) :
    (s.apply index call (.returned state, store, some state)).Ordered manager taskId := by
  have grown : (s.apply index call (.returned state, store, some state)).states taskId =
      s.states taskId ++ [state] := by
    rw [states_apply, if_pos task]
    rfl
  constructor
  case current =>
    rw [grown, List.getLast?_concat]
    exact value
  case numbered =>
    rw [grown, List.map_append, ordered.numbered, List.length_append, List.length_singleton,
      List.range_succ, List.map_singleton, revision]
  case stored =>
    intro other member
    rcases List.mem_append.mp (grown ▸ member) with before | last
    · exact ordered.stored other before
    · exact List.mem_singleton.mp last ▸ stored
  case chained =>
    rw [grown]
    refine List.isChain_append.mpr ⟨ordered.chained, List.isChain_singleton _, ?_⟩
    intro last isLast next isNext
    simp only [List.head?_cons, Option.mem_def, Option.some.injEq] at isNext
    exact isNext ▸ successor last isLast
  case ready =>
    rw [grown]
    intro other member same
    rcases List.mem_or_eq_of_mem_set member with before | rfl
    · exact (ordered.ready other before same).mono (List.subset_append_left ..)
    · trivial

/-- A write of a call on the task is refused, or stores the next state. -/
theorem wrote (ordered : s.Ordered manager taskId)
    (live : s.store.fresh (stateKey taskId) s.now = true) (index : Nat) {call : SharedCall V}
    (ready : call.phase.Ready manager taskId (s.states taskId)) (task : call.taskId = taskId)
    {pending : AgentSharedStateManager.PendingWrite V}
    (write : AgentSharedStateManager.writing call = some pending) :
    (s.apply index call (manager.write s.store call.taskId s.now pending)).Ordered manager taskId := by
  cases outcome : (manager.compareSet s.store call.taskId pending.expectedRevision pending.state
      s.now).1 with
  | false =>
      have refused : manager.write s.store call.taskId s.now pending = (pending.refused,
          (manager.compareSet s.store call.taskId pending.expectedRevision pending.state s.now).2,
          none) := by
        simp [AgentSharedStateManager.write, outcome]
      rw [refused]
      refine ordered.unchanged index call _ (fun _ => rfl) ?_ fun _ => ?_
      · exact ValueStore.find_compareSetJson_refused live outcome
      · unfold AgentSharedStateManager.writing at write
        split at write
        · cases write
          trivial
        · cases write
          trivial
        · contradiction
  | true =>
      have accepted : manager.write s.store call.taskId s.now pending = (.returned pending.state,
          (manager.compareSet s.store call.taskId pending.expectedRevision pending.state s.now).2,
          some pending.state) := by
        simp [AgentSharedStateManager.write, outcome]
      rw [accepted]
      subst task
      obtain ⟨matched, found⟩ := ValueStore.compareSetJson_stored live outcome
      rw [ordered.current] at matched
      obtain ⟨stored, revision, successor⟩ := ordered.follows ready write matched
      exact ordered.extended index rfl (congrArg (Option.map StoredValue.value) found) stored revision
        successor

/-- A step on an unexpired state that is not evicted keeps the order. -/
theorem step (ordered : s.Ordered manager taskId) {t : SharedRun V} {action : SharedAction V}
    (kept : retains manager taskId s action = true)
    (stepped : (sharedMachine manager).step s action = some t) : t.Ordered manager taskId := by
  simp only [retains, stepped, Bool.and_eq_true] at kept
  obtain ⟨live, present⟩ := kept
  cases action with
  | call task request =>
      cases Option.some.inj stepped
      refine ⟨ordered.current, ordered.numbered, ordered.stored, ordered.chained, ?_⟩
      intro other member same
      rcases List.mem_append.mp member with before | last
      · exact ordered.ready other before same
      · rw [List.mem_singleton.mp last]
        trivial
  | wait seconds =>
      cases Option.some.inj stepped
      exact ⟨ordered.current, ordered.numbered, ordered.stored, ordered.chained, ordered.ready⟩
  | advance index =>
      obtain ⟨call, found, advanced⟩ := Option.bind_eq_some_iff.mp stepped
      obtain ⟨step, moved, rfl⟩ := Option.map_eq_some_iff.mp advanced
      have member := List.mem_of_getElem? found
      unfold AgentSharedStateManager.advance at moved
      split at moved
      · rename_i phase read
        cases moved
        refine ordered.unchanged index call _ (fun _ => rfl) ?_ fun task =>
          ordered.reading live task read
        exact ValueStore.find_getJson live
      · obtain ⟨pending, write, rfl⟩ := Option.map_eq_some_iff.mp moved
        by_cases task : call.taskId = taskId
        · exact ordered.wrote live index (ordered.ready call member task) task write
        · refine ordered.unchanged index call _ (fun same => absurd same task) ?_ fun same =>
            absurd same task
          simp only [SharedRun.apply, AgentSharedStateManager.write_store] at present ⊢
          refine ValueStore.find_compareSetJson_other (fun same => task (stateKey_injective same).symm)
            live fun before => ?_
          rw [before] at present
          exact present

theorem of_reachable
    (reached : ((sharedMachine manager).restrict fun s a => retains manager taskId s a = true).Reachable
      s) : s.Ordered manager taskId := by
  refine Machine.Reachable.invariant (P := fun s => s.Ordered manager taskId) ?_ ?_ reached
  · rintro s rfl
    exact ⟨rfl, rfl, nofun, .nil, nofun⟩
  · intro s action t ordered stepped
    obtain ⟨kept, stepped⟩ := Machine.restrict_step.mp stepped
    exact ordered.step kept stepped

end SharedRun.Ordered

/-- The call of every write has returned the state that it wrote. -/
def SharedRun.Answered (s : SharedRun V) : Prop :=
  ∀ write ∈ s.writes, ∃ call, s.calls[write.call]? = some call ∧ call.taskId = write.taskId ∧
    call.phase = .returned write.state

/-- A call that has ended makes no further step, so its write stays answered. -/
theorem SharedRun.Answered.step {s t : SharedRun V} {action : SharedAction V} (answered : s.Answered)
    (stepped : (sharedMachine manager).step s action = some t) : t.Answered := by
  cases action with
  | call task request =>
      cases Option.some.inj stepped
      intro write member
      obtain ⟨call, found, rest⟩ := answered write member
      exact ⟨call, List.getElem?_append_left (List.getElem?_eq_some_iff.mp found).1 ▸ found, rest⟩
  | wait seconds =>
      cases Option.some.inj stepped
      exact answered
  | advance index =>
      obtain ⟨call, found, advanced⟩ := Option.bind_eq_some_iff.mp stepped
      obtain ⟨step, moved, rfl⟩ := Option.map_eq_some_iff.mp advanced
      have inside := (List.getElem?_eq_some_iff.mp found).1
      intro write member
      rcases List.mem_append.mp member with before | last
      · obtain ⟨other, present, task, ended⟩ := answered write before
        have apart : index ≠ write.call := by
          rintro rfl
          cases found.symm.trans present
          simp [AgentSharedStateManager.advance, AgentSharedStateManager.reading,
            AgentSharedStateManager.writing, ended] at moved
        exact ⟨other, (List.getElem?_set_ne apart).trans present, task, ended⟩
      · rw [Option.mem_toList, Option.map_eq_some_iff] at last
        obtain ⟨state, written, rfl⟩ := last
        have returned := AgentSharedStateManager.advance_written moved state written
        exact ⟨_, List.getElem?_set_self inside, rfl, returned⟩

theorem SharedRun.answered_of_reachable {s : SharedRun V}
    (reached : (sharedMachine manager).Reachable s) : s.Answered := by
  refine Machine.Reachable.invariant (P := SharedRun.Answered) ?_ ?_ reached
  · rintro s rfl
    nofun
  · intro s action t answered stepped
    exact answered.step stepped

namespace AgentSharedStateManager

theorem Recorded.length_le {state : SharedState V} (recorded : manager.Recorded state) :
    state.executionHistory.length ≤ manager.maxHistory := by
  have size := congrArg List.length recorded
  rw [List.length_map, List.length_drop, List.length_range] at size
  omega

end AgentSharedStateManager

/-- A call that raises in a step has stored nothing in it. -/
theorem raised_unchanged {s t : SharedRun V} {index : Nat} {call : SharedCall V}
    {error : SharedStateError} (before : s.Ordered manager taskId) (after : t.Ordered manager taskId)
    (stepped : (sharedMachine manager).step s (.advance index) = some t)
    (present : t.calls[index]? = some call) (raised : call.phase = .raised error) :
    t.store.value (stateKey taskId) = s.store.value (stateKey taskId) := by
  obtain ⟨earlier, found, advanced⟩ := Option.bind_eq_some_iff.mp stepped
  obtain ⟨step, moved, rfl⟩ := Option.map_eq_some_iff.mp advanced
  have inside := (List.getElem?_eq_some_iff.mp found).1
  have phase : step.1 = .raised error := by
    have same := (List.getElem?_set_self inside).symm.trans present
    rw [← raised, ← Option.some.inj same]
  have silent : step.2.2 = none := by
    cases written : step.2.2 with
    | none => rfl
    | some state =>
        have returned := AgentSharedStateManager.advance_written moved state written
        rw [phase] at returned
        contradiction
  rw [after.current, before.current, SharedRun.Ordered.states_apply, silent]
  split <;> simp

/-- The stored states of a task are in one order, each an authorized successor of the one before.
Their histories and hashes hold, and only calls that return have stored one. -/
theorem shared_state_protocol {s : SharedRun V}
    (reached : ((sharedMachine manager).restrict fun s a => retains manager taskId s a = true).Reachable
      s) :
    s.store.value (stateKey taskId) = (s.states taskId).getLast? ∧
      (s.states taskId).map SharedState.revision = List.range (s.states taskId).length ∧
      (s.states taskId).IsChain manager.Successor ∧
      (∀ state ∈ s.states taskId, manager.Recorded state ∧
        state.executionHistory.length ≤ manager.maxHistory ∧
        manager.codec.verified state = .ok state) ∧
      (∀ write ∈ s.writes, ∃ call, s.calls[write.call]? = some call ∧ call.taskId = write.taskId ∧
        call.phase = .returned write.state) ∧
      ∀ index t call error,
        ((sharedMachine manager).restrict fun s a => retains manager taskId s a = true).step s
          (.advance index) = some t →
        t.calls[index]? = some call → call.phase = .raised error →
          t.store.value (stateKey taskId) = s.store.value (stateKey taskId) := by
  have ordered := SharedRun.Ordered.of_reachable reached
  refine ⟨ordered.current, ordered.numbered, ordered.chained, ?_, ?_, ?_⟩
  · intro state member
    have stored := ordered.stored state member
    exact ⟨stored.recorded, stored.recorded.length_le, stored.sealed.verified⟩
  · exact SharedRun.answered_of_reachable reached.of_restrict
  · intro index t call error stepped present raised
    obtain ⟨kept, stepped⟩ := Machine.restrict_step.mp stepped
    exact raised_unchanged ordered (ordered.step kept stepped) stepped present raised

end

/-- Fields hold the version of a plan, or nothing. -/
def versionCodec : StateCodec (Option Nat) where
  default _ := none
  parse _ value := some value
  status value := value.map fun _ => "success"
  planVersion value := some (value.getD 0 : Nat)
  hashValue value := toString (value.getD 0)
  hashChanges changes := toString changes.length
  hashState state := toString state.revision ++ state.phase.value
  bytes state := state.executionHistory.length
  parse_default _ := rfl
  parse_parsed _ _ _ _ := rfl

def versionManager : AgentSharedStateManager (Option Nat) := { codec := versionCodec }

/-- Two clients initialize the same task; then two updates of the same revision race. -/
def racingClients : List (SharedAction (Option Nat)) :=
  [.call "trip-1-state" (.initialization (some (some 1))), .call "trip-1-state" (.initialization none),
    .advance 0, .advance 1, .advance 0, .advance 1, .advance 1,
    .call "trip-1-state" (.update .companion 0 "trip_started" [("execution_context", some 7)] none),
    .call "trip-1-state" (.syncFormalRoutePlan 0 (some 2)),
    .advance 2, .advance 3, .advance 3, .advance 2]

theorem shared_state_protocol_raced : ∃ s,
    (sharedMachine versionManager).run {} racingClients = some s ∧
      (s.states "trip-1-state").map SharedState.revision = [0, 1] ∧
      (s.states "trip-1-state").IsChain versionManager.Successor := by
  have ran : ∃ s, (sharedMachine versionManager).run {} racingClients = some s ∧
      (s.states "trip-1-state").map SharedState.revision = [0, 1] := by decide +kernel
  obtain ⟨s, ran, revisions⟩ := ran
  have met : (sharedMachine versionManager).along (retains versionManager "trip-1-state") {}
      racingClients = true := by decide +kernel
  have reached := Machine.reachable_restrict_of_run _ rfl ran (Machine.meetsAlong_of_along met)
  exact ⟨s, ran, revisions, (shared_state_protocol reached).2.2.1⟩

end MapGo.Shared
