import MapGo.Companion.TripEvents
import MapGo.Worker.Delivery

/-! Notifications of trip events. Between its claim and its first commit a handler looks up the
dedupe key of its event, records it, and only then queues the notification. The key names the trip,
the type and the impact, not the event. -/
namespace MapGo.Worker
open Transition Companion Patch

def notificationFingerprint (digest : String → String) (tripId : Nat)
    (channel eventType templateKey : String) : String :=
  digest (toString tripId ++ ":" ++ channel ++ ":" ++ eventType ++ ":" ++ templateKey)

structure Notification where
  id : String
  tripId : Nat
  userId : Nat
  channel : String
  eventType : String
  title : String
  body : String
  impactLevel : ImpactLevel
  decision : EventDecision
  status : String := "queued"
  attempts : Nat := 0
  createdAt : Nat
  deriving DecidableEq

def impactValue : ImpactLevel → String
  | .none => "none"
  | .high => "high"
  | .critical => "critical"

/-- `render_event_notification`: title and body. -/
def renderEventNotification (eventType : String) (decision : EventDecision) : String × String :=
  let title := match eventType with
    | "DeadlineRiskDetected" => "截止时间风险提醒"
    | "ScheduleDelayDetected" => "行程延误提醒"
    | "TrafficChanged" => "路况变化提醒"
    | "WeatherAlertReceived" => "天气变化提醒"
    | "UserOffRoute" => "偏航提醒"
    | "PoiStatusChanged" => "地点状态变化"
    | _ => "行程提醒"
  (title, if decision.reason = "" then "行程状态发生变化" else decision.reason)

/-- How far a running handler is in `NotificationService.enqueue`. -/
inductive NotifyStep where
  | deciding
  | built (notification : Notification)
  | recorded (notification : Notification)
  | described (notification : Notification)
  | queued (notification : Notification)
  | passed
  deriving DecidableEq

/-- The notification is in the queue, or there is nothing to do. -/
def NotifyStep.behind : NotifyStep → Bool
  | .queued _ | .passed => true
  | _ => false

structure Notifying where
  system : System
  /-- `decision_json` and `impact_level` of each event -/
  decisions : Nat → EventDecision
  /-- `user_id` of each trip -/
  users : Nat → Nat
  /-- `notify:dedupe:` entries with their expiry -/
  dedupe : String → Option (Notification × Nat)
  /-- `notify:status:` entries with their expiry -/
  statuses : String → Option (Notification × Nat)
  /-- Of each Worker. -/
  progress : Nat → NotifyStep
  /-- History: what was pushed to `mapgo:notifications`, with its event. -/
  sent : List (Nat × Notification)

inductive NotifyAction where
  /-- An event is decided and stored. -/
  | ingest (event trip : Nat) (current : TripState) (type : TripEventType)
      (payload : TripEventPayload) (last : Option Instant) (cooldown : Nat)
      (now : Instant)
  | other (action : Action)
  | getDedupe (worker : Nat)
  | setDedupe (worker : Nat)
  | setStatus (worker : Nat)
  | push (worker : Nat)
  | publish (worker : Nat)
  /-- The store loses an entry. -/
  | evict (key : String)

/-- The message of a handler that has claimed its event. -/
def Phase.running : Phase → Option Payload
  | .holding .running payload _ _ => some payload
  | _ => none

/-- The message whose next retry is a dead letter. -/
def Phase.givenUp : Phase → Option Payload
  | .contended payload => if 8 ≤ payload.attempt + 1 then some payload else none
  | .failing payload _ _ => if 5 ≤ payload.attempt + 1 then some payload else none
  | _ => none

namespace Notifying

def running (s : Notifying) (worker : Nat) : Option Payload :=
  s.system.workers[worker]?.bind Phase.running

def due (s : Notifying) (event : Nat) : Bool := (s.decisions event).shouldNotify

/-- A handler comes to its commits only behind the notification. -/
def allows (s : Notifying) : Action → Bool
  | .createEvent _ _ => false
  | .worker worker .commit | .worker worker .finish =>
      (s.running worker).all fun payload =>
        !s.due payload.eventId || s.progress worker = .passed
  | _ => true

/-- Each claim starts a handler of its own. -/
def restarted (s : Notifying) : Action → Nat → NotifyStep
  | .worker worker .claim => Function.update s.progress worker .deciding
  | _ => s.progress

/-- The message that becomes a dead letter. -/
def givenUp (s : Notifying) : Action → Option Payload
  | .worker worker .retry => s.system.workers[worker]?.bind Phase.givenUp
  | _ => none

def fingerprint (digest : String → String) (s : Notifying) (payload : Payload) : String :=
  notificationFingerprint digest payload.tripId "in_app" payload.eventType
    (payload.eventType ++ ":" ++ impactValue (s.decisions payload.eventId).impactLevel)

/-- `get_json` of the dedupe key -/
def stored (s : Notifying) (fingerprint : String) : Option Notification :=
  match s.dedupe ("notify:dedupe:" ++ fingerprint) with
  | some (notification, expires) =>
      if expires ≤ s.system.shared.store.now then none else some notification
  | none => none

def notification (digest : String → String) (s : Notifying) (payload : Payload) : Notification :=
  let decision := s.decisions payload.eventId
  { id := s.fingerprint digest payload
    tripId := payload.tripId
    userId := s.users payload.tripId
    channel := "in_app"
    eventType := payload.eventType
    title := (renderEventNotification payload.eventType decision).1
    body := (renderEventNotification payload.eventType decision).2
    impactLevel := decision.impactLevel
    decision := decision
    createdAt := s.system.shared.store.now }

def reach (s : Notifying) (worker : Nat) (progress : NotifyStep) : Notifying :=
  { s with progress := Function.update s.progress worker progress }

def step (cfg : Settings) (digest : String → String) (s : Notifying) :
    NotifyAction → Option Notifying
  | .ingest event trip current type payload last cooldown now =>
      (System.step cfg s.system (.createEvent event trip)).map fun system =>
        { s with
          system := system
          decisions := Function.update s.decisions event
            (evaluateTripEvent current type payload last cooldown now) }
  | .other action =>
      if s.allows action then
        (System.step cfg s.system action).map fun system =>
          { s with system := system, progress := s.restarted action }
      else none
  | .getDedupe worker =>
      (s.running worker).bind fun payload =>
        if s.due payload.eventId ∧ s.progress worker = .deciding then
          -- An entry of any event with this key ends the call.
          if (s.stored (s.fingerprint digest payload)).isSome then some (s.reach worker .passed)
          else some (s.reach worker (.built (s.notification digest payload)))
        else none
  | .setDedupe worker =>
      (s.running worker).bind fun _ =>
        match s.progress worker with
        | .built notification =>
            some { s.reach worker (.recorded notification) with
              dedupe := Function.update s.dedupe ("notify:dedupe:" ++ notification.id)
                (some (notification, s.system.shared.store.now + 3600)) }
        | _ => none
  | .setStatus worker =>
      (s.running worker).bind fun _ =>
        match s.progress worker with
        | .recorded notification =>
            some { s.reach worker (.described notification) with
              statuses := Function.update s.statuses ("notify:status:" ++ notification.id)
                (some (notification, s.system.shared.store.now + 86400)) }
        | _ => none
  | .push worker =>
      (s.running worker).bind fun payload =>
        match s.progress worker with
        | .described notification =>
            some { s.reach worker (.queued notification) with
              sent := s.sent ++ [(payload.eventId, notification)] }
        | _ => none
  | .publish worker =>
      (s.running worker).bind fun _ =>
        match s.progress worker with
        | .queued _ => some (s.reach worker .passed)
        | _ => none
  | .evict key => some { s with dedupe := Function.update s.dedupe key none }

/-- No queue, no lock, no event and no notification yet. -/
def Initial (s : Notifying) : Prop :=
  System.Initial s.system ∧ (∀ key, s.dedupe key = none) ∧ (∀ worker, s.progress worker = .deciding)
    ∧ s.sent = []

def machine (cfg : Settings) (digest : String → String) : Machine Notifying NotifyAction where
  initial := Initial
  step := step cfg digest

/-- The event needs no notification, or has one in the queue. -/
def Sent (s : Notifying) (event : Nat) : Prop :=
  s.due event = true → ∃ entry ∈ s.sent, entry.1 = event

instance (s : Notifying) (event : Nat) : Decidable (s.Sent event) :=
  inferInstanceAs (Decidable (_ → _))

/-- An entry under the dedupe key is found only for an event that is in the queue, a message is
given up only then, and a startup recovery leaves every handler its copy. -/
def Undisturbed (cfg : Settings) (digest : String → String) (s : Notifying) : NotifyAction → Prop
  | .getDedupe worker => ∀ payload ∈ s.running worker,
      (s.stored (s.fingerprint digest payload)).isSome = true → s.Sent payload.eventId
  | .other action => s.system.RecoversOrphans cfg action ∧
      ∀ payload ∈ s.givenUp action, s.Sent payload.eventId
  | _ => True

/-- The event needs no notification, has one, will be handled again, or lost its trip. -/
def Notified (s : Notifying) (event : Nat) : Prop :=
  s.Sent event ∨
    (∃ p : Payload, p.eventId = event ∧ (p ∈ s.system.shared.store.queue ∨
      p ∈ s.system.shared.store.processing ∨ ∃ score, (p, score) ∈ s.system.shared.store.retry)) ∨
    ∃ row, s.system.shared.events event = some row ∧ s.system.shared.trips row.tripId = false

/-- Whoever is done with an event has its notification in the queue. -/
structure Queued (s : Notifying) : Prop where
  processed : ∀ event row, s.system.shared.events event = some row →
    row.status = .workerProcessed → s.Sent event
  dead : ∀ p ∈ s.system.shared.store.dlq,
    (s.system.shared.events p.eventId).isSome = true ∧ s.Sent p.eventId
  behind : ∀ worker payload, s.running worker = some payload →
    (s.progress worker).behind = true → s.Sent payload.eventId

end Notifying

/-- An event becomes processed by the handler that finishes it. -/
theorem Advances.processed (moved : Advances cfg sh phase move sh' phase')
    (found : sh'.events event = some row) (done : row.status = .workerProcessed) :
    sh.events event = some row ∨
      move = .finish ∧ ∃ p, phase.running = some p ∧ p.eventId = event := by
  cases moved with
  | claimed took =>
      obtain ⟨old, -, -, -, rfl⟩ := Shared.claimWorkerFence_some took
      obtain ⟨rfl, rfl⟩ | ⟨-, kept⟩ := update_row found
      · contradiction
      · exact .inl kept
  | committed passed =>
      obtain ⟨-, old, -, -, rfl⟩ := Shared.guardedCommit_some passed
      exact .inl found
  | finished passed =>
      obtain ⟨-, old, -, -, rfl⟩ := Shared.guardedCommit_some passed
      obtain ⟨rfl, rfl⟩ | ⟨-, kept⟩ := update_row found
      · exact .inr ⟨rfl, _, rfl, rfl⟩
      · exact .inl kept
  | _ => exact .inl found

theorem RedisStore.dlq_enqueueRetry {store : RedisStore} {value : Payload}
    (dead : p ∈ (store.enqueueRetry value attempt maxAttempts).dlq) :
    p ∈ store.dlq ∨ maxAttempts ≤ attempt ∧ p.eventId = value.eventId := by
  unfold enqueueRetry at dead
  split at dead
  next final =>
    obtain rfl | old := List.mem_cons.mp dead
    · exact .inr ⟨final, rfl⟩
    · exact .inl old
  next => exact .inl dead

/-- A message dies by the retry of a handler that gives it up. -/
theorem Advances.dead (moved : Advances cfg sh phase move sh' phase')
    (dead : p ∈ sh'.store.dlq) :
    p ∈ sh.store.dlq ∨ move = .retry ∧ ∃ q, phase.givenUp = some q ∧ q.eventId = p.eventId := by
  cases moved with
  | started =>
      rw [RedisStore.recoverProcessing_eq] at dead
      exact .inl dead
  | reserved popped =>
      obtain ⟨-, rfl⟩ := RedisStore.reserve_split popped
      exact .inl dead
  | acquired got =>
      rw [(RedisStore.acquireLock_some got).2.2.2.2.2] at dead
      exact .inl dead
  | @postponed payload =>
      obtain old | ⟨final, same⟩ := RedisStore.dlq_enqueueRetry dead
      · exact .inl old
      · exact .inr ⟨rfl, payload, if_pos final, same.symm⟩
  | @retried payload =>
      obtain old | ⟨final, same⟩ := RedisStore.dlq_enqueueRetry dead
      · exact .inl old
      · exact .inr ⟨rfl, payload, if_pos final, same.symm⟩
  | claimed took =>
      obtain ⟨old, -, -, -, rfl⟩ := Shared.claimWorkerFence_some took
      exact .inl dead
  | committed passed | finished passed =>
      obtain ⟨-, old, -, -, rfl⟩ := Shared.guardedCommit_some passed
      exact .inl dead
  | renewed | renewedFailing =>
      obtain ⟨locks, renewed⟩ := RedisStore.renewLock_locks sh.store
      rw [renewed] at dead
      exact .inl dead
  | released =>
      obtain ⟨locks, released⟩ := RedisStore.releaseLock_locks sh.store
      rw [released] at dead
      exact .inl dead
  | _ => exact .inl dead

/-- A handler runs on with its message, or it has just claimed its event. -/
theorem Advances.running (moved : Advances cfg sh phase move sh' phase')
    (runs : phase'.running = some p) : phase.running = some p ∨ move = .claim := by
  cases moved with
  | claimed took => exact .inr rfl
  | @renewed stage | @lostLease stage => exact .inl (by cases stage <;> exact runs)
  | committed passed => exact .inl runs
  | @released payload token handled => cases handled <;> contradiction
  | _ => contradiction

theorem Phase.running_payload {phase : Phase} (runs : phase.running = some p) :
    phase.payload = some p := by
  unfold running at runs
  split at runs
  · exact runs
  · contradiction

theorem Phase.givenUp_payload {phase : Phase} (final : phase.givenUp = some p) :
    phase.payload = some p := by
  unfold givenUp at final
  split at final
  · split at final
    · exact final
    · contradiction
  · split at final
    · exact final
    · contradiction
  · contradiction

theorem Shared.Rewrites.known {sh sh' : Shared} (rewrites : sh.Rewrites phase sh')
    (known : (sh.events event).isSome = true) : (sh'.events event).isSome = true := by
  cases rewrites with
  | same events => rwa [events]
  | claim _ _ _ events | finish _ events =>
      rw [events, Function.update_apply]
      split
      · rfl
      · exact known

namespace System
variable {s t : System}

theorem step_known (stepped : System.step cfg s a = some t)
    (known : (s.shared.events event).isSome = true) : (t.shared.events event).isSome = true := by
  cases a with
  | worker worker move =>
      obtain ⟨phase, sh, phase', there, moved, rfl⟩ := step_worker stepped
      exact moved.rewrites.known known
  | createEvent fresh trip =>
      simp only [System.step] at stepped
      split at stepped
      · cases stepped
        dsimp only
        rw [Function.update_apply]
        split
        · rfl
        · exact known
      · contradiction
  | enqueue payload =>
      simp only [System.step] at stepped
      split at stepped
      · contradiction
      · split at stepped
        · cases stepped
          exact known
        · contradiction
  | tick | deleteTrip =>
      cases stepped
      exact known

theorem Kept.known {phase : Phase} {worker : Nat} (kept : Kept s)
    (there : s.workers[worker]? = some phase) (held : phase.payload = some p) :
    (s.shared.events p.eventId).isSome = true := by
  obtain ⟨row, found, -⟩ := (kept.held there held).2.2
  rw [found]
  rfl

theorem step_processed (stepped : System.step cfg s a = some t)
    (found : t.shared.events event = some row) (done : row.status = .workerProcessed) :
    s.shared.events event = some row ∨ ∃ (worker : Nat) (phase : Phase) (p : Payload),
      a = .worker worker .finish ∧ s.workers[worker]? = some phase ∧ phase.running = some p ∧
        p.eventId = event := by
  cases a with
  | worker worker move =>
      obtain ⟨phase, sh, phase', there, moved, rfl⟩ := step_worker stepped
      obtain kept | ⟨rfl, p, runs, same⟩ := moved.processed found done
      · exact .inl kept
      · exact .inr ⟨worker, phase, p, rfl, there, runs, same⟩
  | createEvent fresh trip =>
      simp only [System.step] at stepped
      split at stepped
      · cases stepped
        obtain ⟨rfl, rfl⟩ | ⟨-, kept⟩ := update_row found
        · contradiction
        · exact .inl kept
      · contradiction
  | enqueue payload =>
      simp only [System.step] at stepped
      split at stepped
      · contradiction
      · split at stepped
        · cases stepped
          exact .inl found
        · contradiction
  | tick | deleteTrip =>
      cases stepped
      exact .inl found

theorem step_dead (stepped : System.step cfg s a = some t) (dead : p ∈ t.shared.store.dlq) :
    p ∈ s.shared.store.dlq ∨ ∃ (worker : Nat) (phase : Phase) (q : Payload),
      a = .worker worker .retry ∧ s.workers[worker]? = some phase ∧ phase.givenUp = some q ∧
        q.eventId = p.eventId := by
  cases a with
  | worker worker move =>
      obtain ⟨phase, sh, phase', there, moved, rfl⟩ := step_worker stepped
      obtain kept | ⟨rfl, q, final, same⟩ := moved.dead dead
      · exact .inl kept
      · exact .inr ⟨worker, phase, q, rfl, there, final, same⟩
  | createEvent fresh trip =>
      simp only [System.step] at stepped
      split at stepped
      · cases stepped
        exact .inl dead
      · contradiction
  | enqueue payload =>
      simp only [System.step] at stepped
      split at stepped
      · contradiction
      · split at stepped
        · cases stepped
          exact .inl dead
        · contradiction
  | tick | deleteTrip =>
      cases stepped
      exact .inl dead

theorem step_running (stepped : System.step cfg s a = some t) {worker : Nat}
    (runs : t.workers[worker]?.bind Phase.running = some p) :
    s.workers[worker]?.bind Phase.running = some p ∨ a = .worker worker .claim := by
  cases a with
  | worker mover move =>
      obtain ⟨phase, sh, phase', there, moved, rfl⟩ := step_worker stepped
      by_cases here : mover = worker
      · subst here
        obtain ⟨inside, -⟩ := List.getElem?_eq_some_iff.mp there
        rw [List.getElem?_set_self inside] at runs
        rw [there]
        obtain kept | rfl := moved.running runs
        · exact .inl kept
        · exact .inr rfl
      · rw [List.getElem?_set_ne here] at runs
        exact .inl runs
  | createEvent fresh trip =>
      simp only [System.step] at stepped
      split at stepped
      · cases stepped
        exact .inl runs
      · contradiction
  | enqueue payload =>
      simp only [System.step] at stepped
      split at stepped
      · contradiction
      · split at stepped
        · cases stepped
          exact .inl runs
        · contradiction
  | tick | deleteTrip =>
      cases stepped
      exact .inl runs

end System

namespace Notifying
variable {cfg : Settings} {digest : String → String} {s t u : Notifying}

/-- What a step does to the Workers. -/
theorem step_system (stepped : s.step cfg digest action = some t) :
    t.system = s.system ∨
      (∃ event trip, System.step cfg s.system (.createEvent event trip) = some t.system ∧
        t.progress = s.progress) ∨
      ∃ move, action = .other move ∧ s.allows move = true ∧
        System.step cfg s.system move = some t.system ∧ t.progress = s.restarted move := by
  cases action with
  | ingest event trip =>
      obtain ⟨system, made, rfl⟩ := Option.map_eq_some_iff.mp stepped
      exact .inr (.inl ⟨event, trip, made, rfl⟩)
  | other move =>
      simp only [step] at stepped
      split at stepped
      next allowed =>
        obtain ⟨system, made, rfl⟩ := Option.map_eq_some_iff.mp stepped
        exact .inr (.inr ⟨move, rfl, allowed, made, rfl⟩)
      next => contradiction
  | getDedupe worker =>
      obtain ⟨payload, -, stepped⟩ := Option.bind_eq_some_iff.mp stepped
      split at stepped
      · split at stepped <;> (cases stepped; exact .inl rfl)
      · contradiction
  | setDedupe worker | setStatus worker | push worker | publish worker =>
      obtain ⟨payload, -, stepped⟩ := Option.bind_eq_some_iff.mp stepped
      split at stepped
      · cases stepped
        exact .inl rfl
      · contradiction
  | evict key =>
      cases stepped
      exact .inl rfl

theorem running_known (kept : s.system.Kept) {worker : Nat}
    (runs : s.running worker = some payload) :
    (s.system.shared.events payload.eventId).isSome = true := by
  obtain ⟨phase, there, runs⟩ := Option.bind_eq_some_iff.mp runs
  exact kept.known there (Phase.running_payload runs)

theorem due_step (stepped : s.step cfg digest action = some t) {event : Nat}
    (known : (s.system.shared.events event).isSome = true) : t.due event = s.due event := by
  cases action with
  | ingest fresh trip =>
      obtain ⟨system, made, rfl⟩ := Option.map_eq_some_iff.mp stepped
      simp only [System.step] at made
      split at made
      next free =>
        have apart : event ≠ fresh := by
          rintro rfl
          rw [Option.isNone_iff_eq_none.mp free.1] at known
          contradiction
        simp only [due, Function.update_of_ne apart]
      next => contradiction
  | other action =>
      simp only [step] at stepped
      split at stepped
      · obtain ⟨system, made, rfl⟩ := Option.map_eq_some_iff.mp stepped
        rfl
      · contradiction
  | getDedupe worker =>
      obtain ⟨payload, -, stepped⟩ := Option.bind_eq_some_iff.mp stepped
      split at stepped
      · split at stepped <;> (cases stepped; rfl)
      · contradiction
  | setDedupe worker | setStatus worker | push worker | publish worker =>
      obtain ⟨payload, -, stepped⟩ := Option.bind_eq_some_iff.mp stepped
      split at stepped
      · cases stepped
        rfl
      · contradiction
  | evict key =>
      cases stepped
      rfl

theorem sent_step (stepped : s.step cfg digest action = some t) : ∀ entry ∈ s.sent, entry ∈ t.sent := by
  intro entry member
  cases action with
  | ingest fresh trip =>
      obtain ⟨system, made, rfl⟩ := Option.map_eq_some_iff.mp stepped
      exact member
  | other action =>
      simp only [step] at stepped
      split at stepped
      · obtain ⟨system, made, rfl⟩ := Option.map_eq_some_iff.mp stepped
        exact member
      · contradiction
  | getDedupe worker =>
      obtain ⟨payload, -, stepped⟩ := Option.bind_eq_some_iff.mp stepped
      split at stepped
      · split at stepped <;> (cases stepped; exact member)
      · contradiction
  | push worker =>
      obtain ⟨payload, -, stepped⟩ := Option.bind_eq_some_iff.mp stepped
      split at stepped
      · cases stepped
        exact List.mem_append_left _ member
      · contradiction
  | setDedupe worker | setStatus worker | publish worker =>
      obtain ⟨payload, -, stepped⟩ := Option.bind_eq_some_iff.mp stepped
      split at stepped
      · cases stepped
        exact member
      · contradiction
  | evict key =>
      cases stepped
      exact member

theorem Sent.step {event : Nat} (sent : s.Sent event) (stepped : s.step cfg digest action = some t)
    (known : (s.system.shared.events event).isSome = true) : t.Sent event := by
  intro due
  rw [due_step stepped known] at due
  obtain ⟨entry, member, same⟩ := sent due
  exact ⟨entry, sent_step stepped entry member, same⟩

/-- A handler that may commit is behind its notification. -/
theorem Queued.finishes (queued : s.Queued) {worker : Nat}
    (runs : s.running worker = some payload)
    (allowed : s.allows (.worker worker .finish) = true) : s.Sent payload.eventId := by
  intro due
  simp only [allows, runs, Option.all_some, due, Bool.not_true, Bool.false_or,
    decide_eq_true_eq] at allowed
  exact queued.behind worker payload runs (by rw [allowed]; rfl) due

theorem Queued.processed_step (queued : s.Queued) (tracked : s.system.Tracked)
    (stepped : s.step cfg digest action = some t)
    (found : t.system.shared.events event = some row) (done : row.status = .workerProcessed) :
    t.Sent event := by
  have old (before : s.system.shared.events event = some row) : t.Sent event :=
    (queued.processed event row before done).step stepped (by rw [before]; rfl)
  obtain same | ⟨fresh, trip, made, -⟩ | ⟨move, rfl, allowed, made, -⟩ := step_system stepped
  · exact old (same ▸ found)
  · obtain before | ⟨worker, phase, p, named, -⟩ := System.step_processed made found done
    · exact old before
    · contradiction
  · obtain before | ⟨worker, phase, p, rfl, there, runs, rfl⟩ :=
      System.step_processed made found done
    · exact old before
    · have sent := queued.finishes (Option.bind_eq_some_iff.mpr ⟨phase, there, runs⟩) allowed
      exact sent.step stepped (tracked.known there (Phase.running_payload runs))

theorem Queued.dead_step (queued : s.Queued) (tracked : s.system.Tracked)
    (kept : s.Undisturbed cfg digest action) (stepped : s.step cfg digest action = some t)
    (dead : p ∈ t.system.shared.store.dlq) :
    (t.system.shared.events p.eventId).isSome = true ∧ t.Sent p.eventId := by
  obtain same | ⟨fresh, trip, made, -⟩ | ⟨move, rfl, allowed, made, -⟩ := step_system stepped
  · obtain ⟨known, sent⟩ := queued.dead p (same ▸ dead)
    exact ⟨by rwa [same], sent.step stepped known⟩
  · obtain before | ⟨worker, phase, q, named, -⟩ := System.step_dead made dead
    · obtain ⟨known, sent⟩ := queued.dead p before
      exact ⟨System.step_known made known, sent.step stepped known⟩
    · contradiction
  · obtain before | ⟨worker, phase, q, rfl, there, final, same⟩ := System.step_dead made dead
    · obtain ⟨known, sent⟩ := queued.dead p before
      exact ⟨System.step_known made known, sent.step stepped known⟩
    · have known := tracked.known there (Phase.givenUp_payload final)
      have sent := kept.2 q (Option.bind_eq_some_iff.mpr ⟨phase, there, final⟩)
      rw [same] at known sent
      exact ⟨System.step_known made known, sent.step stepped known⟩

/-- A handler moves within `enqueue`. -/
theorem Queued.behind_reach (queued : s.Queued) (tracked : s.system.Tracked)
    (stepped : s.step cfg digest action = some t) (same : t.system = s.system) {mover : Nat}
    {progress : NotifyStep} (reached : t.progress = Function.update s.progress mover progress)
    (fits : progress.behind = true → ∀ payload, s.running mover = some payload →
      t.Sent payload.eventId) :
    ∀ worker payload, t.running worker = some payload → (t.progress worker).behind = true →
      t.Sent payload.eventId := by
  intro worker payload runs behind
  rw [running, same] at runs
  rw [reached] at behind
  by_cases here : worker = mover
  · subst here
    rw [Function.update_self] at behind
    exact fits behind payload runs
  · rw [Function.update_of_ne here] at behind
    exact (queued.behind worker payload runs behind).step stepped
      (running_known tracked.toKept runs)

theorem Queued.behind_step (queued : s.Queued) (tracked : s.system.Tracked)
    (kept : s.Undisturbed cfg digest action) (stepped : s.step cfg digest action = some t) :
    ∀ worker payload, t.running worker = some payload → (t.progress worker).behind = true →
      t.Sent payload.eventId := by
  have whole := stepped
  cases action with
  | ingest fresh trip =>
      obtain ⟨system, made, rfl⟩ := Option.map_eq_some_iff.mp stepped
      intro worker payload runs behind
      obtain runs | named := System.step_running made runs
      · exact (queued.behind worker payload runs behind).step whole
          (running_known tracked.toKept runs)
      · contradiction
  | other move =>
      simp only [step] at stepped
      split at stepped
      next allowed =>
        obtain ⟨system, made, rfl⟩ := Option.map_eq_some_iff.mp stepped
        intro worker payload runs behind
        by_cases claims : move = .worker worker .claim
        · subst claims
          simp only [restarted, Function.update_self] at behind
          contradiction
        · obtain runs | named := System.step_running made runs
          · refine (queued.behind worker payload runs ?_).step whole
              (running_known tracked.toKept runs)
            have same : s.restarted move worker = s.progress worker := by
              unfold restarted
              split
              next mover =>
                refine Function.update_of_ne ?_ _ _
                rintro rfl
                exact claims rfl
              next => rfl
            rwa [← same]
          · exact absurd named claims
      next => contradiction
  | getDedupe worker =>
      obtain ⟨payload, runs, stepped⟩ := Option.bind_eq_some_iff.mp stepped
      split at stepped
      next asked =>
        split at stepped
        next found =>
          cases stepped
          refine queued.behind_reach tracked whole rfl rfl fun _ other same => ?_
          obtain rfl := Option.some.inj (runs.symm.trans same)
          exact (kept payload runs found).step whole (running_known tracked.toKept runs)
        next =>
          cases stepped
          exact queued.behind_reach tracked whole rfl rfl (fun behind => absurd behind Bool.false_ne_true)
      next => contradiction
  | setDedupe worker | setStatus worker =>
      obtain ⟨payload, runs, stepped⟩ := Option.bind_eq_some_iff.mp stepped
      split at stepped
      · cases stepped
        exact queued.behind_reach tracked whole rfl rfl (fun behind => absurd behind Bool.false_ne_true)
      · contradiction
  | push worker =>
      obtain ⟨payload, runs, stepped⟩ := Option.bind_eq_some_iff.mp stepped
      split at stepped
      · cases stepped
        refine queued.behind_reach tracked whole rfl rfl fun _ other same => ?_
        obtain rfl := Option.some.inj (runs.symm.trans same)
        exact fun _ => ⟨_, List.mem_append_right _ (List.mem_singleton_self _), rfl⟩
      · contradiction
  | publish worker =>
      obtain ⟨payload, runs, stepped⟩ := Option.bind_eq_some_iff.mp stepped
      split at stepped
      next notification reached =>
        cases stepped
        refine queued.behind_reach tracked whole rfl rfl fun _ other same => ?_
        have sent := queued.behind worker other same (by rw [reached]; rfl)
        exact sent.step whole (running_known tracked.toKept same)
      next => contradiction
  | evict key =>
      cases stepped
      intro worker payload runs behind
      exact (queued.behind worker payload runs behind).step whole
        (running_known tracked.toKept runs)

theorem Queued.step (queued : s.Queued) (tracked : s.system.Tracked)
    (kept : s.Undisturbed cfg digest action) (stepped : s.step cfg digest action = some t) :
    t.Queued where
  processed _ _ found done := queued.processed_step tracked stepped found done
  dead _ dead := queued.dead_step tracked kept stepped dead
  behind := queued.behind_step tracked kept stepped

theorem undisturbed_of_givenUp {action : Action}
    (orphans : s.system.RecoversOrphans cfg action) (calm : s.givenUp action = none) :
    s.Undisturbed cfg digest (.other action) := by
  refine ⟨orphans, fun payload final => ?_⟩
  rw [calm] at final
  exact absurd final (Option.not_mem_none payload)

theorem tracked_step (tracked : s.system.Tracked) (kept : s.Undisturbed cfg digest action)
    (stepped : s.step cfg digest action = some t) : t.system.Tracked := by
  obtain same | ⟨fresh, trip, made, -⟩ | ⟨move, rfl, -, made, -⟩ := step_system stepped
  · rwa [same]
  · exact tracked.step (a := .createEvent fresh trip) trivial made
  · exact tracked.step kept.1 made

theorem covered_step (tracked : s.system.Tracked) (covered : s.system.Covered event)
    (stepped : s.step cfg digest action = some t) : t.system.Covered event := by
  obtain same | ⟨fresh, trip, made, -⟩ | ⟨move, -, -, made, -⟩ := step_system stepped
  · rwa [same]
  · exact covered.step tracked made
  · exact covered.step tracked made

/-- An event that is still covered is notified or will be handled again. -/
theorem Queued.notified (queued : s.Queued) (tracked : s.system.Tracked)
    (covered : s.system.Covered event) : s.Notified event := by
  obtain ⟨row, found, done | gone⟩ | ⟨p, same, ready | taken | delayed | dead⟩ :=
    covered.delivered tracked
  · exact .inl (queued.processed event row found done)
  · exact .inr (.inr ⟨row, found, gone⟩)
  · exact .inr (.inl ⟨p, same, .inl ready⟩)
  · exact .inr (.inl ⟨p, same, .inr (.inl taken)⟩)
  · exact .inr (.inl ⟨p, same, .inr (.inr delayed)⟩)
  · exact .inl (same ▸ (queued.dead p dead).2)

theorem Initial.queued (initial : s.Initial) : s.Queued := by
  obtain ⟨⟨-, -, -, dlq, -, -, events, -, down⟩, -, progress, -⟩ := initial
  refine ⟨?_, ?_, ?_⟩
  · intro event row found
    rw [events event] at found
    contradiction
  · intro p dead
    rw [dlq] at dead
    contradiction
  · intro worker payload _ behind
    rw [progress worker] at behind
    contradiction

end Notifying

open Notifying in
/-- In an undisturbed run an event that needs a notification has one in the queue as soon as a
handler is done with it, and until then its message is there to be handled again. -/
theorem notifications_kept (cfg : Settings) (digest : String → String) (s t u : Notifying)
    (payload : Payload)
    (reached : ((Notifying.machine cfg digest).restrict (Undisturbed cfg digest)).Reachable s)
    (enqueued : Notifying.step cfg digest s (.other (.enqueue payload)) = some t)
    (later : ((Notifying.machine cfg digest).restrict (Undisturbed cfg digest)).Reaches t u) :
    u.Queued ∧ u.Notified payload.eventId := by
  have start : s.system.Tracked ∧ s.Queued := by
    refine Machine.Reachable.invariant (P := fun s : Notifying => s.system.Tracked ∧ s.Queued) ?_
      (fun {before action after} both stepped => ?_) reached
    · exact fun s initial => ⟨initial.1.tracked, Initial.queued initial⟩
    · obtain ⟨kept, stepped⟩ := Machine.restrict_step.mp stepped
      exact ⟨tracked_step both.1 kept stepped, both.2.step both.1 kept stepped⟩
  have covered : t.system.Covered payload.eventId := by
    obtain ⟨system, made, rfl⟩ := Option.map_eq_some_iff.mp enqueued
    simp only [System.step] at made
    split at made
    · contradiction
    · split at made
      · cases made
        exact .inr (.inl ⟨payload, rfl, .inl List.mem_cons_self⟩)
      · contradiction
  have kept : s.Undisturbed cfg digest (.other (.enqueue payload)) :=
    undisturbed_of_givenUp trivial rfl
  have final : u.system.Tracked ∧ u.Queued ∧ u.system.Covered payload.eventId := by
    refine later.invariant (P := fun s : Notifying => s.system.Tracked ∧ s.Queued ∧
      s.system.Covered payload.eventId) ?_
      ⟨tracked_step start.1 kept enqueued, start.2.step start.1 kept enqueued, covered⟩
    intro before action after all stepped
    obtain ⟨kept, stepped⟩ := Machine.restrict_step.mp stepped
    exact ⟨tracked_step all.1 kept stepped, all.2.1.step all.1 kept stepped,
      covered_step all.1 all.2.2 stepped⟩
  exact ⟨final.2.1, final.2.1.notified final.1 final.2.2⟩

/-! Runs of one live trip whose deadline is at risk. -/

def Notifying.fresh (workers : Nat) : Notifying where
  system := .fresh workers
  decisions _ := ⟨.activeTrip, .none, false, "", []⟩
  users _ := 1
  dedupe _ := none
  statuses _ := none
  progress _ := .deciding
  sent := []

theorem Notifying.fresh_initial (workers : Nat) : Initial (.fresh workers) :=
  ⟨System.fresh_initial workers, fun _ => rfl, fun _ => rfl, rfl⟩

def riskMessage (event : Nat) : Payload := ⟨1, event, "DeadlineRiskDetected", "", 0, none⟩

def report (event : Nat) : NotifyAction := .ingest event 1 .activeTrip .deadlineRisk {} none 10 0

/-- A Worker takes the oldest message up to its dedupe lookup. -/
def lookUp (index owner : Nat) : List NotifyAction :=
  (approach index owner).map .other ++ [.other (.worker index .claim), .getDedupe index]

def queueNotification (index : Nat) : List NotifyAction :=
  [.setDedupe index, .setStatus index, .push index, .publish index]

def complete (index : Nat) : List NotifyAction :=
  [.other (.worker index .finish), .other (.worker index .release),
    .other (.worker index .acknowledge)]

namespace Notifying

/-- `Undisturbed` evaluated, without startup recoveries. -/
def undisturbed (digest : String → String) (s : Notifying) : NotifyAction → Bool
  | .getDedupe worker => (s.running worker).all fun payload =>
      (s.stored (s.fingerprint digest payload)).isNone || decide (s.Sent payload.eventId)
  | .other (.worker _ .start) => false
  | .other action => (s.givenUp action).all fun payload => decide (s.Sent payload.eventId)
  | _ => true

theorem undisturbed_sound {cfg : Settings} {digest : String → String} (s : Notifying)
    (action : NotifyAction) (passed : s.undisturbed digest action = true) :
    s.Undisturbed cfg digest action := by
  unfold undisturbed at passed
  split at passed
  next worker =>
    intro payload runs found
    rw [Option.mem_def.mp runs, Option.all_some, Bool.or_eq_true] at passed
    obtain missing | sent := passed
    · rw [Option.isNone_iff_eq_none.mp missing] at found
      contradiction
    · exact of_decide_eq_true sent
  next => contradiction
  next action starts =>
    refine ⟨?_, fun payload final => ?_⟩
    · unfold System.RecoversOrphans
      split
      next worker => exact absurd rfl (starts worker)
      next => trivial
    · rw [Option.mem_def.mp final, Option.all_some] at passed
      exact of_decide_eq_true passed
  next asks _ others =>
    cases action with
    | getDedupe worker => exact (asks worker rfl).elim
    | other action => exact (others action rfl).elim
    | _ => trivial

/-- The event waits for a notification that nobody will send. -/
def forgotten (s : Notifying) (event : Nat) : Bool :=
  !decide (s.Sent event) && s.system.shared.store.queue.isEmpty &&
    s.system.shared.store.processing.isEmpty && s.system.shared.store.retry.isEmpty &&
    (s.system.shared.findEvent event).isSome

theorem not_notified {s : Notifying} (forgotten : s.forgotten event = true) :
    ¬ s.Notified event := by
  simp only [Notifying.forgotten, Bool.and_eq_true, Bool.not_eq_true', decide_eq_false_iff_not,
    List.isEmpty_iff, Option.isSome_iff_exists] at forgotten
  obtain ⟨⟨⟨⟨unsent, queue⟩, processing⟩, retry⟩, row, alive⟩ := forgotten
  rintro (sent | ⟨p, -, ready | taken | ⟨score, delayed⟩⟩ | ⟨row', found', gone⟩)
  · exact unsent sent
  · simp [queue] at ready
  · simp [processing] at taken
  · simp [retry] at delayed
  · obtain ⟨found, alive⟩ := Shared.findEvent_some.mp alive
    obtain rfl := Option.some.inj (found.symm.trans found')
    exact absurd (gone.symm.trans alive) Bool.false_ne_true

end Notifying

open Notifying in
theorem notifications_kept_risk : ∃ s t u : Notifying,
    ((Notifying.machine {} id).restrict (Undisturbed {} id)).Reachable s ∧
      Notifying.step {} id s (.other (.enqueue (riskMessage 7))) = some t ∧
      ((Notifying.machine {} id).restrict (Undisturbed {} id)).Reaches t u ∧
      u.sent.map Prod.fst = [7] ∧ u.Notified 7 := by
  let handled := lookUp 0 5 ++ queueNotification 0 ++ complete 0
  have begun : ((Notifying.machine {} id).run (fresh 1)
      [.other (.worker 0 .start), report 7]).isSome = true := by decide +kernel
  obtain ⟨s, first⟩ := Option.isSome_iff_exists.mp begun
  have pushed : (((Notifying.machine {} id).run (fresh 1)
      [.other (.worker 0 .start), report 7]).bind fun s =>
        Notifying.step {} id s (.other (.enqueue (riskMessage 7)))).isSome = true := by
    decide +kernel
  rw [first, Option.bind_some] at pushed
  obtain ⟨t, enqueued⟩ := Option.isSome_iff_exists.mp pushed
  have ends : ((((Notifying.machine {} id).run (fresh 1)
      [.other (.worker 0 .start), report 7]).bind fun s =>
        Notifying.step {} id s (.other (.enqueue (riskMessage 7)))).bind fun t =>
          ((Notifying.machine {} id).run t handled).map fun u =>
            ((Notifying.machine {} id).along (undisturbed id) t handled, u.sent.map Prod.fst)) =
      some (true, [7]) := by decide +kernel
  rw [first, Option.bind_some, enqueued, Option.bind_some] at ends
  obtain ⟨u, ran, both⟩ := Option.map_eq_some_iff.mp ends
  obtain ⟨met, sent⟩ := Prod.mk.inj both
  have started : ((Notifying.machine {} id).restrict (Undisturbed {} id)).Reachable s :=
    Machine.reachable_restrict_of_run _ (fresh_initial 1) first
      ⟨undisturbed_of_givenUp (fun p => Nat.zero_le _) rfl,
        fun _ _ => ⟨trivial, fun _ _ => trivial⟩⟩
  have path : ((Notifying.machine {} id).restrict (Undisturbed {} id)).Reaches t u :=
    Machine.reaches_restrict_of_run _ ran
      ((Machine.meetsAlong_of_along met).mono undisturbed_sound)
  exact ⟨s, t, u, started, enqueued, path, sent,
    (notifications_kept {} id s t u (riskMessage 7) started enqueued path).2⟩

open Notifying in
/-- A second event of the same kind is not notified; and an event whose handler stops between the
dedupe entry and the queue is taken for notified when it is handled again. -/
theorem notifications_lost :
    (∃ s : Notifying, (Notifying.machine {} id).Reachable s ∧ s.sent.map Prod.fst = [7] ∧
      ¬ s.Notified 8) ∧
    ∃ s : Notifying, (Notifying.machine {} id).Reachable s ∧ s.sent = [] ∧ ¬ s.Notified 7 := by
  constructor
  · let script := [.other (.worker 0 .start), report 7, .other (.enqueue (riskMessage 7)),
      report 8, .other (.enqueue (riskMessage 8))] ++ lookUp 0 5 ++ queueNotification 0 ++
      complete 0 ++ lookUp 0 6 ++ complete 0
    have ends : ((Notifying.machine {} id).run (fresh 1) script).map (fun s =>
        (s.sent.map Prod.fst, s.forgotten 8)) = some ([7], true) := by decide +kernel
    obtain ⟨s, ran, ends⟩ := Option.map_eq_some_iff.mp ends
    obtain ⟨sent, forgotten⟩ := Prod.mk.inj ends
    exact ⟨s, Machine.reachable_of_run _ (fresh_initial 1) ran, sent, not_notified forgotten⟩
  · let script := [.other (.worker 0 .start), report 7, .other (.enqueue (riskMessage 7))] ++
      lookUp 0 5 ++ [.setDedupe 0, .other (.worker 0 .crash), .other (.tick 30),
        .other (.worker 0 .start)] ++ lookUp 0 6 ++ complete 0
    have ends : ((Notifying.machine {} id).run (fresh 1) script).map (fun s =>
        (s.sent, s.forgotten 7)) = some ([], true) := by decide +kernel
    obtain ⟨s, ran, ends⟩ := Option.map_eq_some_iff.mp ends
    obtain ⟨sent, forgotten⟩ := Prod.mk.inj ends
    exact ⟨s, Machine.reachable_of_run _ (fresh_initial 1) ran, sent, not_notified forgotten⟩

end MapGo.Worker
