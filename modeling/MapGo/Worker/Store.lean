import Mathlib

/-! The runtime store as the trip-event Worker uses it: the reliable list with
its processing copy, the delayed retry set, the dead letters and the fenced
lock of each trip. Lists are written from the Redis left end. One clock serves
lock expiry and retry scores; it only moves forward. -/
namespace MapGo.Worker

structure Settings where
  workerLockTtlSeconds : Nat := 30
  workerRecoverProcessingLimit : Nat := 100

/-- A queue message. Acknowledgement compares whole encoded messages, so the
retry bookkeeping is part of the value; `attempt` is 0 where `_attempt` is absent. -/
structure Payload where
  tripId : Nat
  eventId : Nat
  eventType : String
  traceContext : String
  attempt : Nat
  maxAttempts : Option Nat
  deriving DecidableEq, Repr

/-- The lock value `<fence>:<owner>`. -/
structure LockToken where
  fence : Nat
  owner : Nat
  deriving DecidableEq, Repr

structure Lock where
  token : LockToken
  expires : Nat
  deriving DecidableEq, Repr

structure RedisStore where
  now : Nat
  queue : List Payload
  processing : List Payload
  /-- Sorted set: members with scores, in score order. -/
  retry : List (Payload × Nat)
  dlq : List Payload
  /-- `lock:agent-run:trip:<id>` -/
  locks : Nat → Option Lock
  /-- `lock-fence:agent-run:trip:<id>` -/
  lockFences : Nat → Nat

namespace RedisStore

def enqueue (s : RedisStore) (value : Payload) : RedisStore :=
  { s with queue := value :: s.queue }

/-- `BRPOPLPUSH queue queue:processing` -/
def reserve (s : RedisStore) : Option (Payload × RedisStore) :=
  s.queue.getLast?.map fun payload =>
    (payload, { s with queue := s.queue.dropLast, processing := payload :: s.processing })

/-- `LREM queue:processing 1 receipt` -/
def acknowledge (s : RedisStore) (receipt : Payload) : RedisStore :=
  { s with processing := s.processing.erase receipt }

/-- `RPOPLPUSH queue:processing queue`, at most `limit` times. -/
def recoverProcessing (s : RedisStore) : Nat → RedisStore
  | 0 => s
  | limit + 1 =>
      match s.processing.getLast? with
      | none => s
      | some payload =>
          recoverProcessing
            { s with processing := s.processing.dropLast, queue := payload :: s.queue } limit

def retryDelay (attempt : Nat) : Nat := min 300 (2 ^ attempt)

/-- `ZADD`: a member that is already present only changes its score. -/
def zadd (members : List (Payload × Nat)) (value : Payload) (score : Nat) : List (Payload × Nat) :=
  (members.filter (fun m => m.1 ≠ value)).orderedInsert (fun a b => a.2 ≤ b.2) (value, score)

def enqueueRetry (s : RedisStore) (value : Payload) (attempt maxAttempts : Nat) : RedisStore :=
  let payload := { value with attempt := attempt, maxAttempts := some maxAttempts }
  if attempt ≥ maxAttempts then { s with dlq := payload :: s.dlq }
  else { s with retry := zadd s.retry payload (s.now + retryDelay attempt) }

def promoteRetries (s : RedisStore) (limit : Nat) : RedisStore :=
  let items := (s.retry.filter (fun m => m.2 ≤ s.now)).take limit
  { s with
    retry := s.retry.filter (fun m => m ∉ items)
    queue := (items.map Prod.fst).reverse ++ s.queue }

/-- The lock key, gone once its expiry has passed. -/
def lock (s : RedisStore) (trip : Nat) : Option Lock :=
  (s.locks trip).filter (fun l => s.now < l.expires)

def acquireLock (s : RedisStore) (trip ttlSeconds owner : Nat) : Option LockToken × RedisStore :=
  match s.lock trip with
  | some _ => (none, s)
  | none =>
      let token : LockToken := ⟨s.lockFences trip + 1, owner⟩
      (some token,
        { s with
          lockFences := Function.update s.lockFences trip (s.lockFences trip + 1)
          locks := Function.update s.locks trip (some ⟨token, s.now + ttlSeconds⟩) })

def isLockOwner (s : RedisStore) (trip : Nat) (token : LockToken) : Bool :=
  (s.lock trip).any (fun l => l.token = token)

def renewLock (s : RedisStore) (trip : Nat) (token : LockToken) (ttlSeconds : Nat) :
    Bool × RedisStore :=
  if s.isLockOwner trip token then
    (true, { s with locks := Function.update s.locks trip (some ⟨token, s.now + ttlSeconds⟩) })
  else (false, s)

def releaseLock (s : RedisStore) (trip : Nat) (token : LockToken) : RedisStore :=
  if s.isLockOwner trip token then { s with locks := Function.update s.locks trip none } else s

/-- Recovery moves the right end of the processing list in front of the queue. -/
theorem recoverProcessing_eq (s : RedisStore) (limit : Nat) :
    s.recoverProcessing limit =
      { s with
        processing := s.processing.rdrop limit
        queue := s.processing.rtake limit ++ s.queue } := by
  induction limit generalizing s with
  | zero => simp [recoverProcessing]
  | succ limit ih =>
      cases last : s.processing.getLast? with
      | none =>
          have empty := List.getLast?_eq_none_iff.mp last
          simp [recoverProcessing, empty]
          rw [← empty]
      | some payload =>
          have whole := List.dropLast_append_getLast? payload (by simpa using last)
          simp only [recoverProcessing, last, ih]
          rw [← whole, List.dropLast_concat, List.rdrop_concat_succ, List.rtake_concat_succ]
          simp

theorem mem_zadd {member : Payload × Nat} :
    member ∈ zadd members value score ↔
      member = (value, score) ∨ member ∈ members ∧ member.1 ≠ value := by
  simp [zadd, List.mem_orderedInsert]

/-- A due retry leaves the sorted set only by entering the queue. -/
theorem promoteRetries_keeps {member : Payload × Nat} (s : RedisStore) (limit : Nat)
    (waiting : member ∈ s.retry) :
    member.1 ∈ (s.promoteRetries limit).queue ∨ member ∈ (s.promoteRetries limit).retry := by
  by_cases due : member ∈ (s.retry.filter (fun m => m.2 ≤ s.now)).take limit
  · left
    simp only [promoteRetries, List.mem_append, List.mem_reverse]
    exact .inl (List.mem_map_of_mem due)
  · right
    simp only [promoteRetries, List.mem_filter, decide_eq_true_eq]
    exact ⟨waiting, due⟩

theorem reserve_split {s : RedisStore} (reserved : s.reserve = some (payload, t)) :
    s.queue = t.queue ++ [payload] ∧
      t = { s with queue := s.queue.dropLast, processing := payload :: s.processing } := by
  simp only [reserve, Option.map_eq_some_iff, Prod.mk.injEq] at reserved
  obtain ⟨_, last, rfl, rfl⟩ := reserved
  exact ⟨(List.dropLast_append_getLast? _ (by simpa using last)).symm, rfl⟩

/-- A successful acquisition hands out a fence above every earlier one of the trip. -/
theorem acquireLock_some {s : RedisStore} (got : s.acquireLock trip ttl owner = (some token, t)) :
    token.fence = s.lockFences trip + 1 ∧
      t.lockFences = Function.update s.lockFences trip (s.lockFences trip + 1) ∧
      t.queue = s.queue ∧ t.processing = s.processing ∧ t.retry = s.retry ∧ t.dlq = s.dlq := by
  unfold acquireLock at got
  split at got
  · simp at got
  · simp only [Prod.mk.injEq, Option.some.injEq] at got
    obtain ⟨rfl, rfl⟩ := got
    exact ⟨rfl, rfl, rfl, rfl, rfl, rfl⟩

theorem acquireLock_none {s : RedisStore} (got : s.acquireLock trip ttl owner = (none, t)) :
    t = s := by
  unfold acquireLock at got
  split at got
  · exact (Prod.mk.inj got).2.symm
  · simp at got

theorem renewLock_locks (s : RedisStore) :
    ∃ locks, (s.renewLock trip token ttl).2 = { s with locks := locks } := by
  unfold renewLock
  split
  · exact ⟨_, rfl⟩
  · exact ⟨s.locks, rfl⟩

theorem releaseLock_locks (s : RedisStore) :
    ∃ locks, s.releaseLock trip token = { s with locks := locks } := by
  unfold releaseLock
  split
  · exact ⟨_, rfl⟩
  · exact ⟨s.locks, rfl⟩

/-- A retry stores a copy of the message as delayed work or as a dead letter. -/
theorem enqueueRetry_split (s : RedisStore) (value : Payload) (attempt maxAttempts : Nat) :
    let copy := { value with attempt := attempt, maxAttempts := some maxAttempts }
    s.enqueueRetry value attempt maxAttempts = { s with dlq := copy :: s.dlq } ∨
      s.enqueueRetry value attempt maxAttempts =
        { s with retry := zadd s.retry copy (s.now + retryDelay attempt) } := by
  unfold enqueueRetry
  split
  · exact .inl rfl
  · exact .inr rfl

/-- A message for the event is ready, delayed or dead. -/
def Waiting (s : RedisStore) (event : Nat) : Prop :=
  ∃ p : Payload, p.eventId = event ∧
    (p ∈ s.queue ∨ (∃ score, (p, score) ∈ s.retry) ∨ p ∈ s.dlq)

/-- A message a Worker may still take up or has taken up. -/
def Holds (s : RedisStore) (p : Payload) : Prop :=
  p ∈ s.queue ∨ (∃ score, (p, score) ∈ s.retry) ∨ p ∈ s.processing

variable {s t : RedisStore} {p : Payload}

theorem holds_recoverProcessing (held : (s.recoverProcessing limit).Holds p) : s.Holds p := by
  rw [recoverProcessing_eq] at held
  obtain ready | delayed | taken := held
  · obtain moved | ready := List.mem_append.mp ready
    · exact .inr (.inr (List.mem_of_mem_drop moved))
    · exact .inl ready
  · exact .inr (.inl delayed)
  · exact .inr (.inr (List.mem_of_mem_take taken))

theorem holds_promoteRetries (held : (s.promoteRetries limit).Holds p) : s.Holds p := by
  obtain ready | ⟨score, delayed⟩ | taken := held
  · obtain promoted | ready := List.mem_append.mp ready
    · obtain ⟨⟨_, score⟩, member, rfl⟩ := List.mem_map.mp (List.mem_reverse.mp promoted)
      exact .inr (.inl ⟨score, List.mem_of_mem_filter (List.mem_of_mem_take member)⟩)
    · exact .inl ready
  · exact .inr (.inl ⟨score, List.mem_of_mem_filter delayed⟩)
  · exact .inr (.inr taken)

theorem holds_reserve (reserved : s.reserve = some (payload, t)) (held : t.Holds p) :
    s.Holds p := by
  obtain ⟨split, rfl⟩ := reserve_split reserved
  obtain ready | delayed | taken := held
  · exact .inl (List.dropLast_subset _ ready)
  · exact .inr (.inl delayed)
  · obtain rfl | taken := List.mem_cons.mp taken
    · exact .inl (split ▸ List.mem_append_right _ List.mem_cons_self)
    · exact .inr (.inr taken)

theorem holds_enqueueRetry {value : Payload}
    (held : (s.enqueueRetry value attempt maxAttempts).Holds p) :
    s.Holds p ∨ value.eventId = p.eventId ∧ value.tripId = p.tripId := by
  obtain dead | delayed := enqueueRetry_split s value attempt maxAttempts
  · rw [dead] at held
    exact .inl held
  · rw [delayed] at held
    obtain ready | ⟨score, member⟩ | taken := held
    · exact .inl (.inl ready)
    · obtain new | ⟨old, -⟩ := mem_zadd.mp member
      · cases new
        exact .inr ⟨rfl, rfl⟩
      · exact .inl (.inr (.inl ⟨score, old⟩))
    · exact .inl (.inr (.inr taken))

theorem waiting_zadd {value : Payload} (waiting : Waiting s event) :
    Waiting { s with retry := zadd s.retry value score } event := by
  obtain ⟨p, same, ready | ⟨old, delayed⟩ | dead⟩ := waiting
  · exact ⟨p, same, .inl ready⟩
  · by_cases replaced : p = value
    · exact ⟨p, same, .inr (.inl ⟨score, mem_zadd.mpr (.inl (by rw [replaced]))⟩)⟩
    · exact ⟨p, same, .inr (.inl ⟨old, mem_zadd.mpr (.inr ⟨delayed, replaced⟩)⟩)⟩
  · exact ⟨p, same, .inr (.inr dead)⟩

theorem waiting_enqueueRetry {value : Payload} (waiting : Waiting s event) :
    (s.enqueueRetry value attempt maxAttempts).Waiting event := by
  obtain dead | delayed := enqueueRetry_split s value attempt maxAttempts
  · obtain ⟨p, same, ready | delayed | old⟩ := waiting
    · exact ⟨p, same, .inl (dead ▸ ready)⟩
    · exact ⟨p, same, .inr (.inl (dead ▸ delayed))⟩
    · exact ⟨p, same, .inr (.inr (dead ▸ List.mem_cons_of_mem _ old))⟩
  · rw [delayed]
    exact waiting_zadd waiting

theorem enqueueRetry_waiting (s : RedisStore) (value : Payload) :
    (s.enqueueRetry value attempt maxAttempts).Waiting value.eventId := by
  refine ⟨{ value with attempt := attempt, maxAttempts := some maxAttempts }, rfl, ?_⟩
  obtain dead | delayed := enqueueRetry_split s value attempt maxAttempts
  · rw [dead]
    exact .inr (.inr List.mem_cons_self)
  · rw [delayed]
    exact .inr (.inl ⟨_, mem_zadd.mpr (.inl rfl)⟩)

theorem waiting_promoteRetries (waiting : Waiting s event) :
    (s.promoteRetries limit).Waiting event := by
  obtain ⟨p, same, ready | ⟨score, delayed⟩ | dead⟩ := waiting
  · exact ⟨p, same, .inl (List.mem_append_right _ ready)⟩
  · obtain promoted | kept := promoteRetries_keeps s limit delayed
    · exact ⟨p, same, .inl promoted⟩
    · exact ⟨p, same, .inr (.inl ⟨score, kept⟩)⟩
  · exact ⟨p, same, .inr (.inr dead)⟩

/-- The one message a reservation takes out of the queue is the one it returns. -/
theorem waiting_reserve (reserved : s.reserve = some (payload, t)) (waiting : Waiting s event) :
    payload.eventId = event ∨ t.Waiting event := by
  obtain ⟨split, rfl⟩ := reserve_split reserved
  obtain ⟨p, same, ready | delayed | dead⟩ := waiting
  · rw [split, List.mem_append, List.mem_singleton] at ready
    obtain kept | rfl := ready
    · exact .inr ⟨p, same, .inl kept⟩
    · exact .inl same
  · exact .inr ⟨p, same, .inr (.inl delayed)⟩
  · exact .inr ⟨p, same, .inr (.inr dead)⟩

end RedisStore
end MapGo.Worker
