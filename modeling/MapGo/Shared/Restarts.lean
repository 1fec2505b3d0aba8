import MapGo.Generation
import MapGo.Shared.Protocol

/-! Shared states that are deleted, expire and are evicted while clients update them. A client reads a
state and later passes its revision on; the history tells which value each update has replaced. -/
namespace MapGo.Shared

open Transition MapGo.Runtime

/-- An update by a client that has read a state. -/
inductive Revision (V : Type) where
  | syncFormalRoutePlan (routePlan : V)
  | update (actor : AgentType) (action : String) (changes : List (String × V))
      (messageId : Option String)

def Revision.request {V : Type} (expectedRevision : Int) : Revision V → SharedRequest V
  | .syncFormalRoutePlan routePlan => .syncFormalRoutePlan expectedRevision routePlan
  | .update actor action changes messageId =>
      .update actor expectedRevision action changes messageId

/-- A call with the stamps of what its caller had read and of what it has answered. -/
structure ClientCall (V : Type) extends SharedCall V where
  basis : Option Stamp := none
  answer : Option Stamp := none

/-- The value that an update replaces, and the one that its caller had read. -/
structure Replacement where
  basis : Option Stamp
  found : Stamp
  deriving DecidableEq

structure RestartRun (V : Type) where
  now : Nat := 0
  store : ValueStore (SharedState V)
  calls : List (ClientCall V) := []
  /-- History: the removals and writes of every task. -/
  generations : String → Generation := fun _ => {}
  /-- History: the updates and refreshes that were stored. -/
  replacements : List Replacement := []

/-- Entries of other users are left out, but push the oldest entries out of the store. -/
inductive RestartAction (V : Type) where
  | initialization (taskId : String) (routePlan : Option V)
  | read (taskId : String)
  | revise (source : Nat) (revision : Revision V)
  | advance (index : Nat)
  | delete (taskId : String)
  | evict
  | wait (seconds : Nat)

namespace RestartRun
variable {V : Type}

/-- The state of a task that a read would find. -/
def live (s : RestartRun V) (taskId : String) : Option (SharedState V) :=
  (s.store.getJson (stateKey taskId) s.now).1

/-- The histories after a step, with the task whose state it has written. -/
def track (s : RestartRun V) (store : ValueStore (SharedState V)) (now : Nat)
    (written : Option String) (taskId : String) : Generation :=
  if written = some taskId then (s.generations taskId).write
  else if (s.live taskId).isSome ∧ (store.getJson (stateKey taskId) now).1.isNone then
    (s.generations taskId).remove
  else s.generations taskId

/-- A step that only drops values or lets time pass. -/
def settle (s : RestartRun V) (store : ValueStore (SharedState V)) (now : Nat) : RestartRun V :=
  { s with store := store, now := now, generations := s.track store now none }

def start (s : RestartRun V) (call : ClientCall V) : RestartRun V :=
  { s with calls := s.calls ++ [call] }

/-- What the stamps of a call become; an initialization passes on what it has found. -/
def stamped (call : ClientCall V) (phase : CallPhase V) (stamp : Stamp) : ClientCall V :=
  match phase with
  | .returned _ => { call with phase := phase, answer := some stamp }
  | .syncing _ _ => { call with phase := phase, basis := some stamp }
  | _ => { call with phase := phase }

/-- An update of a state that exists, in contrast to a first state. -/
def replaces (phase : CallPhase V) : Bool :=
  match phase with
  | .storing _ _ => true
  | _ => false

def apply (s : RestartRun V) (index : Nat) (call : ClientCall V)
    (step : AgentSharedStateManager.Step V) : RestartRun V :=
  let generations := s.track step.2.1 s.now (step.2.2.map fun _ => call.taskId)
  { s with
    store := step.2.1
    calls := s.calls.set index (stamped call step.1 (generations call.taskId).stamp)
    generations := generations
    replacements := s.replacements ++
      if step.2.2.isSome && replaces call.phase then
        [⟨call.basis, (s.generations call.taskId).stamp⟩]
      else [] }

end RestartRun

def restartMachine {V : Type} (manager : AgentSharedStateManager V) :
    Machine (RestartRun V) (RestartAction V) where
  initial s := s.store.values = [] ∧ s = { store := s.store }
  step s
    | .initialization taskId plan =>
        some (s.start { taskId := taskId, request := .initialization plan, phase := .begun })
    | .read taskId => some (s.start { taskId := taskId, request := .read, phase := .begun })
    | .revise source revision => (s.calls[source]?).bind fun call => match call.phase with
        | .returned state => some (s.start
            { taskId := call.taskId
              request := revision.request state.revision
              phase := .begun
              basis := call.answer })
        | _ => none
    | .advance index => (s.calls[index]?).bind fun call =>
        (manager.advance s.store s.now call.toSharedCall).map fun step => s.apply index call step
    | .delete taskId => some (s.settle (s.store.removeValue (stateKey taskId)) s.now)
    | .evict => some (s.settle (s.store.keep s.store.values.tail (List.tail_sublist _)) s.now)
    | .wait seconds => some (s.settle s.store (s.now + seconds))

namespace RestartRun
variable {V : Type}

/-- Every update has replaced what its caller had read: nothing was written or removed in between. -/
def AsRead (s : RestartRun V) : Prop :=
  ∀ replacement ∈ s.replacements, replacement.basis = some replacement.found

/-- The state of a task was not removed between a caller's read and its successful write. -/
def unbroken (manager : AgentSharedStateManager V) (s : RestartRun V) : RestartAction V → Bool
  | .advance index => (s.calls[index]?).all fun call =>
      match manager.advance s.store s.now call.toSharedCall with
      | some (_, _, some _) => !replaces call.phase ||
          call.basis.map Stamp.removals = some (s.generations call.taskId).stamp.removals
      | _ => true
  | _ => true

variable {manager : AgentSharedStateManager V} {s t : RestartRun V}

/-- The revision that a call of a client, or the second half of an initialization, must find. -/
def expects (call : SharedCall V) : Option Int :=
  match call.phase, call.request with
  | .begun, .syncFormalRoutePlan expected _ => some expected
  | .begun, .update _ expected _ _ _ => some expected
  | .syncing expected _, _ => some expected
  | _, _ => none

/-- Where a reading step leads, from what it has found. -/
inductive Reads (found : Option (SharedState V)) (expected : Option Int) : CallPhase V → Prop
  | raised (error : SharedStateError) : Reads found expected (.raised error)
  | returned (raw state : SharedState V) (same : found = some raw)
      (revision : state.revision = raw.revision) : Reads found expected (.returned state)
  | syncing (raw : SharedState V) (revision : Int) (plan : V) (same : found = some raw)
      (current : (raw.revision : Int) = revision) : Reads found expected (.syncing revision plan)
  | creating (state : SharedState V) (first : state.revision = 0) :
      Reads found expected (.creating state)
  | storing (revision : Int) (state : SharedState V) (asked : expected = some revision)
      (next : (state.revision : Int) = revision + 1) : Reads found expected (.storing revision state)

theorem read_found {store : ValueStore (SharedState V)} {taskId : String} {now : Nat}
    {state : SharedState V} (found : manager.read store taskId now = .ok state) :
    ∃ raw, (store.getJson (stateKey taskId) now).1 = some raw ∧ state.revision = raw.revision := by
  unfold AgentSharedStateManager.read at found
  split at found
  · contradiction
  · rename_i raw same
    exact ⟨raw, same, StateCodec.verified_revision found⟩

theorem beginSync_reads (store : ValueStore (SharedState V)) (taskId : String) (now : Nat)
    {expected : Option Int} {revision : Int} (asked : expected = some revision) (plan : V) :
    Reads (store.getJson (stateKey taskId) now).1 expected
      (manager.beginSync store taskId now revision plan) := by
  unfold AgentSharedStateManager.beginSync
  split
  · exact .raised _
  · split
    · exact .raised _
    · rename_i current found
      obtain ⟨raw, same, kept⟩ := read_found found
      split
      · exact .raised _
      · exact .returned raw current same kept
      · rename_i updated refreshed
        exact .storing revision updated asked
          (AgentSharedStateManager.preparePlan_revision refreshed)

theorem beginUpdate_reads (store : ValueStore (SharedState V)) (taskId : String) (now : Nat)
    {expected : Option Int} {revision : Int} (asked : expected = some revision) (actor : AgentType)
    (action : String) (changes : List (String × V)) (messageId : Option String) :
    Reads (store.getJson (stateKey taskId) now).1 expected
      (manager.beginUpdate store taskId now actor revision action changes messageId) := by
  unfold AgentSharedStateManager.beginUpdate
  split
  · exact .raised _
  · split
    · exact .raised _
    · rename_i current found
      cases updated : manager.prepareUpdate current actor revision action changes messageId now with
      | error error => exact .raised error
      | ok next =>
          exact .storing revision next asked
            (AgentSharedStateManager.prepareUpdate_revision updated)

theorem beginInitialize_reads (store : ValueStore (SharedState V)) (taskId : String) (now : Nat)
    (expected : Option Int) (plan : Option V) :
    Reads (store.getJson (stateKey taskId) now).1 expected
      (manager.beginInitialize store taskId now plan) := by
  unfold AgentSharedStateManager.beginInitialize
  split
  · rename_i raw same
    split
    · exact .raised _
    · rename_i state verified
      have kept := StateCodec.verified_revision verified
      split
      · exact .returned raw state same kept
      · split
        · exact .syncing raw _ _ same (by rw [kept])
        · exact .returned raw state same kept
  · split
    · exact .raised _
    · rename_i state initialized
      exact .creating state (AgentSharedStateManager.initialState_ok initialized).2

theorem reading_reads {store : ValueStore (SharedState V)} {now : Nat} {call : SharedCall V}
    {phase : CallPhase V} (read : manager.reading store now call = some phase) :
    Reads (store.getJson (stateKey call.taskId) now).1 (expects call) phase := by
  obtain ⟨taskId, request, before⟩ := call
  cases before with
  | begun =>
      cases Option.some.inj read
      cases request with
      | initialization plan => exact beginInitialize_reads ..
      | syncFormalRoutePlan expected plan => exact beginSync_reads store taskId now rfl plan
      | update actor expected action changes messageId =>
          exact beginUpdate_reads store taskId now rfl actor action changes messageId
      | read =>
          cases found : manager.read store taskId now with
          | error error => simpa [found, AgentSharedStateManager.ended] using Reads.raised error
          | ok state =>
              obtain ⟨raw, same, kept⟩ := read_found found
              simpa [found, AgentSharedStateManager.ended] using Reads.returned raw state same kept
  | syncing expected plan =>
      cases Option.some.inj read
      exact beginSync_reads store taskId now rfl plan
  | rereading =>
      cases Option.some.inj read
      unfold AgentSharedStateManager.reread
      split
      · exact .raised _
      · exact .raised _
      · rename_i state found
        obtain ⟨raw, same, kept⟩ := read_found found
        exact .returned raw state same kept
  | _ => contradiction

/-! ### Stamps along a step -/

/-- What was seen stays seen. -/
def Later (g after : Generation) : Prop :=
  ∀ stamp revision, g.Seen stamp revision → after.Seen stamp revision

theorem track_later (s : RestartRun V) (store : ValueStore (SharedState V)) (now : Nat)
    (written : Option String) (taskId : String) :
    Later (s.generations taskId) (s.track store now written taskId) := by
  intro stamp revision seen
  unfold track
  split
  · exact seen.write
  · split
    · exact seen.remove
    · exact seen

/-- A task whose state is not written keeps it or loses it. -/
theorem track_tracks {store : ValueStore (SharedState V)} {now : Nat} {written : Option String}
    {taskId : String} (other : written ≠ some taskId)
    (tracks : (s.generations taskId).Tracks ((s.live taskId).map SharedState.revision))
    (kept : (store.getJson (stateKey taskId) now).1 = s.live taskId ∨
      (store.getJson (stateKey taskId) now).1 = none) :
    (s.track store now written taskId).Tracks
      ((store.getJson (stateKey taskId) now).1.map SharedState.revision) := by
  rw [track, if_neg other]
  cases after : (store.getJson (stateKey taskId) now).1 with
  | none =>
      cases before : s.live taskId with
      | none => simpa [before] using tracks
      | some state => simpa using Generation.tracks_remove
  | some state =>
      have same : s.live taskId = some state := by
        rcases kept with same | gone
        · exact same ▸ after
        · rw [gone] at after
          contradiction
      simpa [same] using tracks

/-- The caller of a call has read a state of this revision. -/
def Based (g : Generation) (call : ClientCall V) (expected : Int) : Prop :=
  ∃ stamp revision, call.basis = some stamp ∧ ((revision : Nat) : Int) = expected ∧
    g.Seen stamp revision

def Sound (g : Generation) (call : ClientCall V) : Prop :=
  (∀ expected, expects call.toSharedCall = some expected → Based g call expected) ∧
  match call.phase with
  | .creating state => state.revision = 0
  | .storing expected state => Based g call expected ∧ (state.revision : Int) = expected + 1
  | .returned state => ∃ stamp, call.answer = some stamp ∧ g.Seen stamp state.revision
  | _ => True

theorem Based.later {g after : Generation} (later : Later g after) {call : ClientCall V}
    {expected : Int} (based : Based g call expected) : Based after call expected := by
  obtain ⟨stamp, revision, basis, same, seen⟩ := based
  exact ⟨stamp, revision, basis, same, later _ _ seen⟩

theorem Sound.later {g after : Generation} (later : Later g after) {call : ClientCall V}
    (sound : Sound g call) : Sound after call := by
  obtain ⟨asked, phase⟩ := sound
  refine ⟨fun expected known => (asked expected known).later later, ?_⟩
  split
  · rename_i state same
    rw [same] at phase
    exact phase
  · rename_i expected state same
    rw [same] at phase
    exact ⟨phase.1.later later, phase.2⟩
  · rename_i state same
    rw [same] at phase
    obtain ⟨stamp, answer, seen⟩ := phase
    exact ⟨stamp, answer, later _ _ seen⟩
  · trivial

/-- The history of each task counts its revision, and the stamps of the calls are of their states. -/
structure Tracked (s : RestartRun V) : Prop where
  cells : ∀ taskId, (s.generations taskId).Tracks ((s.live taskId).map SharedState.revision)
  calls : ∀ call ∈ s.calls, Sound (s.generations call.taskId) call

namespace Tracked

theorem start (tracked : s.Tracked) {call : ClientCall V}
    (sound : Sound (s.generations call.taskId) call) : (s.start call).Tracked where
  cells := tracked.cells
  calls other member := by
    rcases List.mem_append.mp member with before | last
    · exact tracked.calls other before
    · rw [List.mem_singleton.mp last]
      exact sound

theorem settle (tracked : s.Tracked) {store : ValueStore (SharedState V)} {now : Nat}
    (ordered : s.now ≤ now)
    (kept : ∀ key item, store.find key = some item → s.store.find key = some item) :
    (s.settle store now).Tracked where
  cells taskId := track_tracks nofun (tracked.cells taskId)
    (ValueStore.getJson_of_find ordered (kept (stateKey taskId)))
  calls call member := (tracked.calls call member).later (track_later s store now none call.taskId)

/-- Where a step leads, a call is sound with the stamps that it then has. -/
theorem stamped_reads {before after : Generation} (later : Later before after)
    {call : ClientCall V} (sound : Sound before call) {found : Option (SharedState V)}
    (tracks : ∀ raw, found = some raw → after.Tracks (some raw.revision)) {phase : CallPhase V}
    (reads : Reads found (expects call.toSharedCall) phase) :
    Sound after (stamped call phase after.stamp) := by
  cases reads with
  | raised error => exact ⟨nofun, trivial⟩
  | returned raw state same revision =>
      exact ⟨nofun, after.stamp, rfl, revision ▸ (tracks raw same).seen⟩
  | syncing raw revision plan same current =>
      refine ⟨fun expected asked => ?_, trivial⟩
      cases asked
      exact ⟨after.stamp, raw.revision, rfl, current, (tracks raw same).seen⟩
  | creating state first => exact ⟨nofun, first⟩
  | storing revision state asked next =>
      exact ⟨nofun, (sound.1 revision asked).later later, next⟩

theorem apply (tracked : s.Tracked) {index : Nat} {call : ClientCall V}
    {step : AgentSharedStateManager.Step V}
    (cells : ∀ taskId, (s.track step.2.1 s.now (step.2.2.map fun _ => call.taskId) taskId).Tracks
      ((step.2.1.getJson (stateKey taskId) s.now).1.map SharedState.revision))
    (sound : Sound (s.track step.2.1 s.now (step.2.2.map fun _ => call.taskId) call.taskId)
      (stamped call step.1
        (s.track step.2.1 s.now (step.2.2.map fun _ => call.taskId) call.taskId).stamp)) :
    (s.apply index call step).Tracked where
  cells := cells
  calls other member := by
    rcases List.mem_or_eq_of_mem_set member with before | rfl
    · exact (tracked.calls other before).later (track_later s _ _ _ _)
    · have task : (stamped call step.1
          (s.track step.2.1 s.now (step.2.2.map fun _ => call.taskId) call.taskId).stamp).taskId =
            call.taskId := by
        unfold stamped
        split <;> rfl
      rw [task]
      exact sound

theorem read_step (tracked : s.Tracked) (index : Nat) {call : ClientCall V}
    (member : call ∈ s.calls) {phase : CallPhase V}
    (read : manager.reading s.store s.now call.toSharedCall = some phase) :
    (s.apply index call (phase, (s.store.getJson (stateKey call.taskId) s.now).2, none)).Tracked := by
  have kept (taskId : String) (item : StoredValue (SharedState V))
      (found : (s.store.getJson (stateKey call.taskId) s.now).2.find (stateKey taskId) = some item) :
      s.store.find (stateKey taskId) = some item := ValueStore.find_of_getJson found
  have cells (taskId : String) :
      (s.track (s.store.getJson (stateKey call.taskId) s.now).2 s.now none taskId).Tracks
        (((s.store.getJson (stateKey call.taskId) s.now).2.getJson (stateKey taskId) s.now).1.map
          SharedState.revision) :=
    track_tracks nofun (tracked.cells taskId) (ValueStore.getJson_of_find le_rfl (kept taskId))
  refine tracked.apply cells (stamped_reads (track_later s _ _ _ _) (tracked.calls call member) ?_
    (reading_reads read))
  intro raw found
  have same := cells call.taskId
  rw [ValueStore.getJson_live found, found] at same
  rw [ValueStore.getJson_live found]
  exact same

/-- The revision that a stored update has found is that of a state which its caller had read. -/
theorem replaced (tracked : s.Tracked) {call : ClientCall V} (member : call ∈ s.calls)
    {expected : Int} {state : SharedState V} (storing : call.phase = .storing expected state)
    (matched : (s.live call.taskId).elim (-1) (fun state => (state.revision : Int)) = expected) :
    (∃ current, s.live call.taskId = some current ∧ state.revision = current.revision + 1) ∧
      (call.basis = some (s.generations call.taskId).stamp ↔
        call.basis.map Stamp.removals = some (s.generations call.taskId).stamp.removals) := by
  have sound := (tracked.calls call member).2
  rw [storing] at sound
  obtain ⟨⟨stamp, revision, basis, same, seen⟩, next⟩ := sound
  cases live : s.live call.taskId with
  | none =>
      rw [live, Option.elim_none] at matched
      omega
  | some current =>
      rw [live, Option.elim_some] at matched
      have tracks := tracked.cells call.taskId
      have found : current.revision = revision := by omega
      rw [live, Option.map_some, found] at tracks
      refine ⟨⟨current, rfl, by omega⟩, ?_⟩
      rw [basis, Option.map_some, Option.some_inj, Option.some_inj]
      exact seen.eq_iff tracks

/-- A stored state counts on from what was in the cell. -/
theorem written (tracked : s.Tracked) {call : ClientCall V} (member : call ∈ s.calls)
    {pending : AgentSharedStateManager.PendingWrite V}
    (write : AgentSharedStateManager.writing call.toSharedCall = some pending)
    (matched : (s.live call.taskId).elim (-1) (fun state => (state.revision : Int)) =
      pending.expectedRevision) :
    pending.state.revision = ((s.live call.taskId).map SharedState.revision).elim 0 (· + 1) := by
  have sound := (tracked.calls call member).2
  unfold AgentSharedStateManager.writing at write
  split at write
  · rename_i state creating
    cases write
    rw [creating] at sound
    cases live : s.live call.taskId with
    | none => exact sound
    | some current =>
        rw [live, Option.elim_some] at matched
        dsimp only at matched
        omega
  · rename_i expected state storing
    cases write
    obtain ⟨current, live, next⟩ := (tracked.replaced member storing matched).1
    rw [live, Option.map_some, Option.elim_some]
    exact next
  · contradiction

theorem refuse_step (tracked : s.Tracked) (index : Nat) {call : ClientCall V}
    {pending : AgentSharedStateManager.PendingWrite V}
    (write : AgentSharedStateManager.writing call.toSharedCall = some pending)
    (refused : (manager.compareSet s.store call.taskId pending.expectedRevision pending.state
      s.now).1 = false) :
    (s.apply index call (pending.refused, (manager.compareSet s.store call.taskId
      pending.expectedRevision pending.state s.now).2, none)).Tracked := by
  refine tracked.apply (fun taskId => ?_) ?_
  · exact track_tracks nofun (tracked.cells taskId)
      (.inl (ValueStore.getJson_compareSetJson_refused refused))
  · unfold AgentSharedStateManager.writing at write
    split at write
    · cases write
      exact ⟨nofun, trivial⟩
    · cases write
      exact ⟨nofun, trivial⟩
    · contradiction

theorem store_step (tracked : s.Tracked) (index : Nat) {call : ClientCall V}
    (member : call ∈ s.calls) {pending : AgentSharedStateManager.PendingWrite V}
    (write : AgentSharedStateManager.writing call.toSharedCall = some pending)
    (stored : (manager.compareSet s.store call.taskId pending.expectedRevision pending.state
      s.now).1 = true) :
    (s.apply index call (.returned pending.state, (manager.compareSet s.store call.taskId
      pending.expectedRevision pending.state s.now).2, some pending.state)).Tracked := by
  have matched := (ValueStore.compareSetJson_iff.mp stored).1
  have positive : 0 < manager.ttlSeconds := lt_of_lt_of_le (by decide) (le_max_left 60 _)
  have found := ValueStore.getJson_compareSetJson positive stored
  have revision := tracked.written member write matched
  have cells (taskId : String) : (s.track (manager.compareSet s.store call.taskId
      pending.expectedRevision pending.state s.now).2 s.now (some call.taskId) taskId).Tracks
        (((manager.compareSet s.store call.taskId pending.expectedRevision pending.state
          s.now).2.getJson (stateKey taskId) s.now).1.map SharedState.revision) := by
    by_cases task : call.taskId = taskId
    · subst task
      rw [track, if_pos rfl, AgentSharedStateManager.compareSet, found, Option.map_some, revision]
      exact (tracked.cells call.taskId).write
    · refine track_tracks (fun same => task (Option.some.inj same)) (tracked.cells taskId)
        (ValueStore.getJson_of_find le_rfl fun item inside => ?_)
      rcases ValueStore.find_of_compareSetJson inside with before | ⟨-, same⟩
      · exact before
      · exact absurd (stateKey_injective same).symm task
  have seen := cells call.taskId
  rw [AgentSharedStateManager.compareSet, found] at seen
  exact tracked.apply cells ⟨nofun, _, rfl, seen.seen⟩

end Tracked

/-! ### Steps and runs -/

theorem asRead_append {replacements : List Replacement} (same : t.replacements =
    s.replacements ++ replacements) : t.AsRead ↔ s.AsRead ∧
      ∀ replacement ∈ replacements, replacement.basis = some replacement.found := by
  rw [AsRead, AsRead, same, List.forall_mem_append]

theorem asRead_same (same : t.replacements = s.replacements) : t.AsRead ↔ s.AsRead := by
  rw [AsRead, AsRead, same]

theorem advance_step (tracked : s.Tracked) {index : Nat}
    (stepped : (restartMachine manager).step s (.advance index) = some t) :
    t.Tracked ∧ (t.AsRead ↔ s.AsRead ∧ s.unbroken manager (.advance index) = true) := by
  obtain ⟨call, present, advanced⟩ := Option.bind_eq_some_iff.mp stepped
  obtain ⟨step, moved, rfl⟩ := Option.map_eq_some_iff.mp advanced
  have member := List.mem_of_getElem? present
  simp only [unbroken, present, Option.all_some, moved]
  unfold AgentSharedStateManager.advance at moved
  split at moved
  · rename_i phase read
    cases moved
    refine ⟨tracked.read_step index member read, ?_⟩
    rw [asRead_same (s := s) (List.append_nil _)]
    exact (and_iff_left rfl).symm
  · obtain ⟨pending, write, rfl⟩ := Option.map_eq_some_iff.mp moved
    unfold AgentSharedStateManager.write
    dsimp only
    cases outcome : (manager.compareSet s.store call.taskId pending.expectedRevision pending.state
        s.now).1 with
    | false =>
        rw [if_neg Bool.false_ne_true]
        refine ⟨tracked.refuse_step index write outcome, ?_⟩
        rw [asRead_same (s := s) (List.append_nil _)]
        exact (and_iff_left rfl).symm
    | true =>
        rw [if_pos rfl]
        refine ⟨tracked.store_step index member write outcome, ?_⟩
        have matched := (ValueStore.compareSetJson_iff.mp outcome).1
        rw [asRead_append (s := s) rfl]
        refine and_congr_right fun _ => ?_
        unfold AgentSharedStateManager.writing at write
        split at write
        · rename_i state creating
          simp [replaces, creating]
        · rename_i expected state storing
          cases write
          simpa [replaces, storing] using (tracked.replaced member storing matched).2
        · contradiction

theorem Tracked.step (tracked : s.Tracked) {action : RestartAction V}
    (stepped : (restartMachine manager).step s action = some t) :
    t.Tracked ∧ (t.AsRead ↔ s.AsRead ∧ s.unbroken manager action = true) := by
  cases action with
  | advance index => exact advance_step tracked stepped
  | initialization taskId plan =>
      cases stepped
      exact ⟨tracked.start ⟨nofun, trivial⟩, (and_iff_left rfl).symm⟩
  | read taskId =>
      cases stepped
      exact ⟨tracked.start ⟨nofun, trivial⟩, (and_iff_left rfl).symm⟩
  | revise source revision =>
      obtain ⟨call, present, stepped⟩ := Option.bind_eq_some_iff.mp stepped
      split at stepped
      · rename_i state returned
        cases stepped
        have sound := (tracked.calls call (List.mem_of_getElem? present)).2
        rw [returned] at sound
        obtain ⟨stamp, answer, seen⟩ := sound
        refine ⟨tracked.start ⟨fun expected asked => ?_, trivial⟩, (and_iff_left rfl).symm⟩
        have same : (state.revision : Int) = expected := by
          cases revision <;> exact Option.some.inj asked
        exact ⟨stamp, state.revision, answer, same, seen⟩
      · contradiction
  | delete taskId =>
      cases stepped
      refine ⟨tracked.settle le_rfl fun key item found => ?_, (and_iff_left rfl).symm⟩
      exact ValueStore.find_of_subset (List.filter_subset_self _) found
  | evict =>
      cases stepped
      refine ⟨tracked.settle le_rfl fun key item found => ?_, (and_iff_left rfl).symm⟩
      exact ValueStore.find_of_subset (List.tail_subset _) found
  | wait seconds =>
      cases stepped
      exact ⟨tracked.settle (Nat.le_add_right _ _) fun _ _ found => found, (and_iff_left rfl).symm⟩

theorem asRead_run {actions : List (RestartAction V)} (tracked : s.Tracked)
    (ran : (restartMachine manager).run s actions = some t) :
    t.AsRead ↔ s.AsRead ∧ (restartMachine manager).along (unbroken manager) s actions = true := by
  induction actions generalizing s with
  | nil =>
      cases Option.some.inj ran
      exact (and_iff_left rfl).symm
  | cons action rest ih =>
      obtain ⟨middle, stepped, ran⟩ := Option.bind_eq_some_iff.mp ran
      obtain ⟨tracked, exact'⟩ := tracked.step stepped
      rw [ih tracked ran, exact', Machine.along, stepped, Bool.and_eq_true, and_assoc]

end RestartRun

/-- In every run each update and refresh that was stored has replaced the value that its caller had
read, exactly when no task was removed between a caller's read and its successful write. -/
theorem updates_replace_what_was_read {V : Type} {manager : AgentSharedStateManager V}
    {start s : RestartRun V} {actions : List (RestartAction V)}
    (initial : (restartMachine manager).initial start)
    (ran : (restartMachine manager).run start actions = some s) :
    s.AsRead ↔ (restartMachine manager).along (RestartRun.unbroken manager) start actions = true := by
  obtain ⟨empty, fresh⟩ := initial
  have tracked : start.Tracked := by
    rw [fresh]
    constructor
    · intro taskId
      have none' : start.store.find (stateKey taskId) = none := by
        rw [ValueStore.find, empty]
        rfl
      have absent : RestartRun.live { store := start.store } taskId = none := by
        rw [RestartRun.live, ValueStore.getJson, none']
      rw [absent]
      rfl
    · exact List.forall_mem_nil _
  have nothing : start.AsRead := by
    rw [fresh]
    exact List.forall_mem_nil _
  rw [RestartRun.asRead_run tracked ran]
  exact and_iff_right nothing

/-- A client reads the first state of a trip and starts the trip; in between the state may be
deleted and made again. -/
def revisedClients (between : List (RestartAction (Option Nat))) :
    List (RestartAction (Option Nat)) :=
  [.initialization "trip-1-state" (some (some 1)), .advance 0, .advance 0] ++ between ++
    [.revise 0 (.update .companion "trip_started" [("execution_context", some 7)] none)]

def emptyRun : RestartRun (Option Nat) := { store := {} }

theorem updates_replace_what_was_read_kept : ∃ s,
    (restartMachine versionManager).run emptyRun (revisedClients [] ++ [.advance 1, .advance 1]) =
      some s ∧ s.replacements.map Replacement.found = [⟨0, 1⟩] ∧ s.AsRead := by
  have ran : ∃ s, (restartMachine versionManager).run emptyRun
      (revisedClients [] ++ [.advance 1, .advance 1]) = some s ∧
        s.replacements.map Replacement.found = [⟨0, 1⟩] := by decide +kernel
  obtain ⟨s, ran, found⟩ := ran
  have met : (restartMachine versionManager).along (RestartRun.unbroken versionManager) emptyRun
      (revisedClients [] ++ [.advance 1, .advance 1]) = true := by decide +kernel
  exact ⟨s, ran, found, (updates_replace_what_was_read ⟨rfl, rfl⟩ ran).mpr met⟩

/-- The deletion and a second initialization come between the read and the update. -/
def deletedBetween : List (RestartAction (Option Nat)) :=
  revisedClients [.delete "trip-1-state", .initialization "trip-1-state" (some (some 2)), .advance 1,
    .advance 1] ++ [.advance 2, .advance 2]

/-- The update replaces the second state, which its caller has never read. -/
theorem update_replaces_restarted : ∃ s,
    (restartMachine versionManager).run emptyRun deletedBetween = some s ∧
      s.replacements = [⟨some ⟨0, 1⟩, ⟨1, 2⟩⟩] ∧ ¬ s.AsRead := by
  have ran : ∃ s, (restartMachine versionManager).run emptyRun deletedBetween = some s ∧
      s.replacements = [⟨some ⟨0, 1⟩, ⟨1, 2⟩⟩] := by decide +kernel
  obtain ⟨s, ran, replaced⟩ := ran
  refine ⟨s, ran, replaced, fun read => ?_⟩
  have same := read ⟨some ⟨0, 1⟩, ⟨1, 2⟩⟩ (replaced ▸ List.mem_cons_self)
  contradiction

end MapGo.Shared
