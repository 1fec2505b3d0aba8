import MapGo.Transition
import MapGo.Worker.Store

/-! The trip-event Worker as a machine: any number of Worker processes over one
Redis store and one database. A process is the point its handler has reached;
each move is one await of `run_worker` or `process_trip_event`, so a pause, a
lock expiry or a crash may fall between any two of them. Exceptions are moves
of the environment. -/
namespace MapGo.Worker

inductive EventStatus where
  | received | processed | workerProcessing | workerProcessed
  deriving DecidableEq, Repr

/-- The columns of `trip_events` the Worker reads and writes. -/
structure TripEvent where
  tripId : Nat
  status : EventStatus
  workerFencingToken : Nat
  deriving DecidableEq, Repr

/-- What became durable in the database, newest first: successful claims and
commits that passed the fence guard. Nothing reads it. -/
inductive Effect where
  | claim (event trip token : Nat)
  | commit (event trip token : Nat) (processed : Bool)
  deriving DecidableEq, Repr

/-- Store, database and effects, shared by all processes. -/
structure Shared where
  store : RedisStore
  trips : Nat → Bool
  events : Nat → Option TripEvent
  effects : List Effect

/-- The progress of a handler that has acquired the lock of its trip. -/
inductive Stage where
  | locked | loaded | owned | running
  deriving DecidableEq, Repr

/-- Where a Worker process stands. `lost` is the `lease_lost` flag of its renewal
task; `handled` decides whether the message is acknowledged. -/
inductive Phase where
  | down
  | idle
  | reserved (payload : Payload)
  | contended (payload : Payload)
  | holding (stage : Stage) (payload : Payload) (token : LockToken) (lost : Bool)
  | failing (payload : Payload) (token : LockToken) (lost : Bool)
  | releasing (payload : Payload) (token : LockToken) (handled : Bool)
  | acknowledging (payload : Payload)
  deriving DecidableEq, Repr

inductive Move where
  | start | promote | reserve | acquire (owner : Nat) | load | checkOwner | claim | commit | finish
  | fail | cancel | renew | renewError | retry | release | acknowledge | storeError | crash
  deriving DecidableEq, Repr

/-- The rows found after one row is written. -/
theorem update_row {rows : Nat → Option TripEvent} {event other : Nat}
    (found : Function.update rows event (some row) other = some row') :
    other = event ∧ row = row' ∨ other ≠ event ∧ rows other = some row' := by
  by_cases same : other = event
  · subst same
    exact .inl ⟨rfl, by simpa using found⟩
  · exact .inr ⟨same, by rwa [Function.update_of_ne same] at found⟩

theorem update_fresh {rows : Nat → Option TripEvent} {event other : Nat}
    (fresh : rows event = none) (found : rows other = some row) :
    Function.update rows event value other = some row := by
  rwa [Function.update_of_ne]
  rintro rfl
  simp [found] at fresh

namespace Shared

/-- `db.get(TripEvent, id)`; rows of a deleted trip are gone with it. -/
def findEvent (sh : Shared) (event : Nat) : Option TripEvent :=
  (sh.events event).filter (fun row => sh.trips row.tripId)

/-- `_claim_worker_fence`: one conditional update and its commit. -/
def claimWorkerFence (sh : Shared) (event token : Nat) : Option Shared :=
  match sh.findEvent event with
  | none => none
  | some row =>
      if row.status ≠ .workerProcessed ∧ row.workerFencingToken < token then
        some { sh with
          events := Function.update sh.events event
            (some { row with status := .workerProcessing, workerFencingToken := token })
          effects := .claim event row.tripId token :: sh.effects }
      else none

/-- A commit of the fenced session: the guard reads the row under a lock that
the commit still holds, so both are one step. `none` is the guard's exception. -/
def guardedCommit (sh : Shared) (event token : Nat) (lost processed : Bool) : Option Shared :=
  if lost then none
  else match sh.findEvent event with
    | none => none
    | some row =>
        if row.workerFencingToken = token then
          some { sh with
            events := if processed then
                Function.update sh.events event (some { row with status := .workerProcessed })
              else sh.events
            effects := .commit event row.tripId token processed :: sh.effects }
        else none

theorem findEvent_some {sh : Shared} :
    sh.findEvent event = some row ↔ sh.events event = some row ∧ sh.trips row.tripId = true := by
  simp [findEvent, Option.filter_eq_some_iff]

theorem claimWorkerFence_some {sh : Shared} (took : sh.claimWorkerFence event token = some after) :
    ∃ row, sh.findEvent event = some row ∧ row.status ≠ .workerProcessed ∧
      row.workerFencingToken < token ∧
      after = { sh with
        events := Function.update sh.events event
          (some { row with status := .workerProcessing, workerFencingToken := token })
        effects := .claim event row.tripId token :: sh.effects } := by
  unfold claimWorkerFence at took
  split at took
  · contradiction
  · rename_i row found
    split at took
    · rename_i free
      exact ⟨row, found, free.1, free.2, (Option.some.inj took).symm⟩
    · contradiction

/-- A refused claim met a settled event or a token at least as high. -/
theorem claimWorkerFence_none {sh : Shared} (refused : sh.claimWorkerFence event token = none)
    (found : sh.findEvent event = some row) :
    row.status = .workerProcessed ∨ token ≤ row.workerFencingToken := by
  simp only [claimWorkerFence, found, ite_eq_right_iff, reduceCtorEq, imp_false, not_and] at refused
  by_cases settled : row.status = .workerProcessed
  · exact .inl settled
  · exact .inr (Nat.le_of_not_lt (refused settled))

theorem guardedCommit_some {sh : Shared}
    (passed : sh.guardedCommit event token lost processed = some after) :
    lost = false ∧ ∃ row, sh.findEvent event = some row ∧ row.workerFencingToken = token ∧
      after = { sh with
        events := if processed then
            Function.update sh.events event (some { row with status := .workerProcessed })
          else sh.events
        effects := .commit event row.tripId token processed :: sh.effects } := by
  unfold guardedCommit at passed
  split at passed
  · contradiction
  · rename_i held
    refine ⟨by simpa using held, ?_⟩
    split at passed
    · contradiction
    · rename_i row found
      split at passed
      · rename_i current
        exact ⟨row, found, current, (Option.some.inj passed).symm⟩
      · contradiction

end Shared

/-- One await of one process. -/
def advance (cfg : Settings) (sh : Shared) : Phase → Move → Option (Shared × Phase)
  | .down, .start =>
      some ({ sh with store := sh.store.recoverProcessing cfg.workerRecoverProcessingLimit }, .idle)
  | .idle, .promote => some ({ sh with store := sh.store.promoteRetries 50 }, .idle)
  | .idle, .reserve =>
      sh.store.reserve.map fun (payload, store) => ({ sh with store := store }, .reserved payload)
  | .reserved payload, .acquire owner =>
      match sh.store.acquireLock payload.tripId cfg.workerLockTtlSeconds owner with
      | (none, store) => some ({ sh with store := store }, .contended payload)
      | (some token, store) =>
          some ({ sh with store := store }, .holding .locked payload token false)
  | .contended payload, .retry =>
      some ({ sh with store := sh.store.enqueueRetry payload (payload.attempt + 1) 8 },
        .acknowledging payload)
  | .holding .locked payload token lost, .load =>
      if sh.trips payload.tripId then
        match sh.findEvent payload.eventId with
        -- Without a row nothing is fenced and nothing is committed.
        | none => some (sh, .releasing payload token true)
        | some row =>
            if row.status = .workerProcessed then some (sh, .releasing payload token true)
            else some (sh, .holding .loaded payload token lost)
      else some (sh, .releasing payload token true)
  | .holding .loaded payload token lost, .checkOwner =>
      if lost ∨ ¬ sh.store.isLockOwner payload.tripId token then
        some (sh, .failing payload token lost)
      else some (sh, .holding .owned payload token lost)
  | .holding .owned payload token lost, .claim =>
      match sh.claimWorkerFence payload.eventId token.fence with
      | some sh => some (sh, .holding .running payload token lost)
      -- Fenced off: the handler returns normally.
      | none => some (sh, .releasing payload token true)
  | .holding .running payload token lost, .commit =>
      match sh.guardedCommit payload.eventId token.fence lost false with
      | some sh => some (sh, .holding .running payload token lost)
      | none => some (sh, .failing payload token lost)
  | .holding .running payload token lost, .finish =>
      match sh.guardedCommit payload.eventId token.fence lost true with
      | some sh => some (sh, .releasing payload token true)
      | none => some (sh, .failing payload token lost)
  | .holding _ payload token lost, .fail => some (sh, .failing payload token lost)
  -- A cancelled handler skips the retry but still releases its lock.
  | .holding _ payload token _, .cancel => some (sh, .releasing payload token false)
  -- The renewal task ends with the first renewal that does not succeed.
  | .holding stage payload token false, .renew =>
      let (renewed, store) :=
        sh.store.renewLock payload.tripId token cfg.workerLockTtlSeconds
      some ({ sh with store := store }, .holding stage payload token (!renewed))
  | .holding stage payload token false, .renewError =>
      some (sh, .holding stage payload token true)
  | .failing payload token false, .renew =>
      let (renewed, store) :=
        sh.store.renewLock payload.tripId token cfg.workerLockTtlSeconds
      some ({ sh with store := store }, .failing payload token (!renewed))
  | .failing payload token false, .renewError => some (sh, .failing payload token true)
  | .failing payload token _, .retry =>
      some ({ sh with store := sh.store.enqueueRetry payload (payload.attempt + 1) 5 },
        .releasing payload token true)
  | .releasing payload token handled, .release =>
      some ({ sh with store := sh.store.releaseLock payload.tripId token },
        if handled then .acknowledging payload else .idle)
  | .acknowledging payload, .acknowledge =>
      some ({ sh with store := sh.store.acknowledge payload }, .idle)
  -- A store command that raises leaves the message unacknowledged.
  | .reserved _, .storeError => some (sh, .idle)
  | .contended _, .storeError => some (sh, .idle)
  | .failing payload token _, .storeError => some (sh, .releasing payload token false)
  | .releasing _ _ _, .storeError => some (sh, .idle)
  | .acknowledging _, .storeError => some (sh, .down)
  | _, .crash => some (sh, .down)
  | _, _ => none

/-- Everything one move can do, with the facts its branch has tested. -/
inductive Advances (cfg : Settings) (sh : Shared) : Phase → Move → Shared → Phase → Prop where
  | started : Advances cfg sh .down .start
      { sh with store := sh.store.recoverProcessing cfg.workerRecoverProcessingLimit } .idle
  | promoted : Advances cfg sh .idle .promote
      { sh with store := sh.store.promoteRetries 50 } .idle
  | reserved (popped : sh.store.reserve = some (payload, store)) :
      Advances cfg sh .idle .reserve { sh with store := store } (.reserved payload)
  | acquired (got : sh.store.acquireLock payload.tripId cfg.workerLockTtlSeconds owner =
        (some token, store)) :
      Advances cfg sh (.reserved payload) (.acquire owner) { sh with store := store }
        (.holding .locked payload token false)
  | contended : Advances cfg sh (.reserved payload) (.acquire owner) sh (.contended payload)
  | postponed : Advances cfg sh (.contended payload) .retry
      { sh with store := sh.store.enqueueRetry payload (payload.attempt + 1) 8 }
      (.acknowledging payload)
  | settled (found : ∀ row, sh.findEvent payload.eventId = some row →
        sh.trips payload.tripId → row.status = .workerProcessed) :
      Advances cfg sh (.holding .locked payload token lost) .load sh
        (.releasing payload token true)
  | loaded : Advances cfg sh (.holding .locked payload token lost) .load sh
      (.holding .loaded payload token lost)
  | owned : Advances cfg sh (.holding .loaded payload token lost) .checkOwner sh
      (.holding .owned payload token lost)
  | claimed (took : sh.claimWorkerFence payload.eventId token.fence = some after) :
      Advances cfg sh (.holding .owned payload token lost) .claim after
        (.holding .running payload token lost)
  | fenced (refused : sh.claimWorkerFence payload.eventId token.fence = none) :
      Advances cfg sh (.holding .owned payload token lost) .claim sh
        (.releasing payload token true)
  | committed (passed : sh.guardedCommit payload.eventId token.fence lost false = some after) :
      Advances cfg sh (.holding .running payload token lost) .commit after
        (.holding .running payload token lost)
  | finished (passed : sh.guardedCommit payload.eventId token.fence lost true = some after) :
      Advances cfg sh (.holding .running payload token lost) .finish after
        (.releasing payload token true)
  | failed : Advances cfg sh (.holding stage payload token lost) move sh
      (.failing payload token lost)
  | renewed : Advances cfg sh (.holding stage payload token false) .renew
      { sh with store := (sh.store.renewLock payload.tripId token cfg.workerLockTtlSeconds).2 }
      (.holding stage payload token
        (!(sh.store.renewLock payload.tripId token cfg.workerLockTtlSeconds).1))
  | lostLease : Advances cfg sh (.holding stage payload token false) .renewError sh
      (.holding stage payload token true)
  | renewedFailing : Advances cfg sh (.failing payload token false) .renew
      { sh with store := (sh.store.renewLock payload.tripId token cfg.workerLockTtlSeconds).2 }
      (.failing payload token
        (!(sh.store.renewLock payload.tripId token cfg.workerLockTtlSeconds).1))
  | lostFailing : Advances cfg sh (.failing payload token false) .renewError sh
      (.failing payload token true)
  | retried : Advances cfg sh (.failing payload token lost) .retry
      { sh with store := sh.store.enqueueRetry payload (payload.attempt + 1) 5 }
      (.releasing payload token true)
  | released : Advances cfg sh (.releasing payload token handled) .release
      { sh with store := sh.store.releaseLock payload.tripId token }
      (if handled then .acknowledging payload else .idle)
  | acknowledged : Advances cfg sh (.acknowledging payload) .acknowledge
      { sh with store := sh.store.acknowledge payload } .idle
  | unhandled : Advances cfg sh (.failing payload token lost) .storeError sh
      (.releasing payload token false)
  | cancelled : Advances cfg sh (.holding stage payload token lost) .cancel sh
      (.releasing payload token false)
  | abandoned (busy : phase ≠ .idle) : Advances cfg sh phase .storeError sh .idle
  | crashed : Advances cfg sh phase move sh .down

theorem advances_of_advance (moved : advance cfg sh phase move = some (sh', phase')) :
    Advances cfg sh phase move sh' phase' := by
  unfold advance at moved
  split at moved
  case h_3 =>
    simp only [Option.map_eq_some_iff, Prod.exists, Prod.mk.injEq] at moved
    obtain ⟨payload, store, popped, rfl, rfl⟩ := moved
    exact .reserved popped
  case h_4 =>
    split at moved
    · rename_i got
      cases Option.some.inj moved
      cases RedisStore.acquireLock_none got
      exact .contended
    · rename_i got
      cases Option.some.inj moved
      exact .acquired got
  case h_6 payload token lost =>
    split at moved
    · rename_i alive
      split at moved
      · rename_i missing
        cases Option.some.inj moved
        exact .settled (by simp [missing])
      · rename_i row found
        split at moved
        · rename_i processed
          cases Option.some.inj moved
          exact .settled (by simpa [found] using fun _ => processed)
        · cases Option.some.inj moved
          exact .loaded
    · rename_i gone
      cases Option.some.inj moved
      exact .settled (fun _ _ alive => absurd alive gone)
  case h_7 =>
    split at moved
    · cases Option.some.inj moved
      exact .failed
    · cases Option.some.inj moved
      exact .owned
  case h_8 =>
    split at moved
    · rename_i took
      cases Option.some.inj moved
      exact .claimed took
    · rename_i refused
      cases Option.some.inj moved
      exact .fenced refused
  case h_9 =>
    split at moved
    · rename_i passed
      cases Option.some.inj moved
      exact .committed passed
    · cases Option.some.inj moved
      exact .failed
  case h_10 =>
    split at moved
    · rename_i passed
      cases Option.some.inj moved
      exact .finished passed
    · cases Option.some.inj moved
      exact .failed
  all_goals first
    | contradiction
    | (cases Option.some.inj moved; first
        | exact .started | exact .promoted | exact .postponed | exact .failed | exact .renewed
        | exact .lostLease | exact .renewedFailing | exact .lostFailing | exact .cancelled
        | exact .retried | exact .released | exact .acknowledged | exact .unhandled
        | exact .crashed | exact .abandoned (by simp))

structure System where
  shared : Shared
  workers : List Phase

inductive Action where
  | tick (seconds : Nat)
  | createEvent (event trip : Nat)
  | enqueue (payload : Payload)
  | deleteTrip (trip : Nat)
  | worker (index : Nat) (move : Move)
  deriving DecidableEq, Repr

def System.step (cfg : Settings) (s : System) : Action → Option System
  | .tick seconds =>
      some { s with shared.store.now := s.shared.store.now + seconds }
  | .createEvent event trip =>
      if (s.shared.events event).isNone ∧ s.shared.trips trip then
        some { s with shared.events :=
          Function.update s.shared.events event (some ⟨trip, .processed, 0⟩) }
      else none
  | .enqueue payload =>
      match s.shared.findEvent payload.eventId with
      | none => none
      | some row =>
          if row.tripId = payload.tripId ∧ payload.attempt = 0 ∧ payload.maxAttempts = none then
            some { s with shared.store := s.shared.store.enqueue payload }
          else none
  | .deleteTrip trip =>
      some { s with shared.trips := Function.update s.shared.trips trip false }
  | .worker index move =>
      (s.workers[index]?).bind fun phase =>
        (advance cfg s.shared phase move).map fun (shared, phase) =>
          ⟨shared, s.workers.set index phase⟩

theorem System.step_worker (stepped : System.step cfg s (.worker index move) = some t) :
    ∃ phase sh phase', s.workers[index]? = some phase ∧
      Advances cfg s.shared phase move sh phase' ∧ t = ⟨sh, s.workers.set index phase'⟩ := by
  simp only [System.step, Option.bind_eq_some_iff, Option.map_eq_some_iff, Prod.exists] at stepped
  obtain ⟨phase, at_, sh, phase', moved, rfl⟩ := stepped
  exact ⟨phase, sh, phase', at_, advances_of_advance moved, rfl⟩

/-- No queue, no lock and no event yet; any trips and any number of Workers. -/
def System.Initial (s : System) : Prop :=
  s.shared.store.queue = [] ∧ s.shared.store.processing = [] ∧ s.shared.store.retry = [] ∧
    s.shared.store.dlq = [] ∧ (∀ trip, s.shared.store.locks trip = none) ∧
    (∀ trip, s.shared.store.lockFences trip = 0) ∧ (∀ event, s.shared.events event = none) ∧
    s.shared.effects = [] ∧ ∀ phase ∈ s.workers, phase = .down

def machine (cfg : Settings) : Transition.Machine System Action where
  initial := System.Initial
  step := System.step cfg

/-! A small deployment for runs: one live trip and stopped Workers. -/

def System.fresh (workers : Nat) : System where
  shared.store := ⟨0, [], [], [], [], fun _ => none, fun _ => 0⟩
  shared.trips trip := trip = 1
  shared.events _ := none
  shared.effects := []
  workers := List.replicate workers .down

theorem System.fresh_initial (workers : Nat) : System.Initial (.fresh workers) :=
  ⟨rfl, rfl, rfl, rfl, fun _ => rfl, fun _ => rfl, fun _ => rfl, rfl,
    fun _ => List.eq_of_mem_replicate⟩

def message (event : Nat) : Payload := ⟨1, event, "UserOffRoute", "", 0, none⟩

def announce (event : Nat) : List Action := [.createEvent event 1, .enqueue (message event)]

/-- A started Worker takes the oldest message and is about to claim its event. -/
def approach (index owner : Nat) : List Action :=
  [.worker index .reserve, .worker index (.acquire owner), .worker index .load,
    .worker index .checkOwner]

end MapGo.Worker
