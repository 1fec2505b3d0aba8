import MapGo.Transport.Stream

/-! Consumers of the stream transport in any order of steps: how many live copies a publication has,
and which retries add one. -/
namespace MapGo.Transport

open Transition

/-- An entry that `reclaim` has claimed and not counted yet. -/
structure Claim where
  consumer : Nat
  receipt : Nat
  message : AgentMessage
  deriving DecidableEq, Repr

structure StreamConsumers where
  transport : RedisStreamTransport := {}
  claims : List Claim := []
  /-- Deliveries that some consumer holds, settled ones included. -/
  handed : List AgentMessageDelivery := []
  deriving DecidableEq, Repr

/-- A `reclaim` claims its entries first and then counts them one by one. -/
inductive ConsumerAction where
  | publish (idempotencyKey : String) (attempt : Nat)
  | forget (idempotencyKey : String)
  | wait (ms : Nat)
  | receive (consumer : Nat)
  | claim (consumer receipt minIdleMs : Nat)
  | count (claim : Claim)
  | acknowledge (d : AgentMessageDelivery)
  | retry (d : AgentMessageDelivery) (errorCode : String) (maxAttempts : Nat)

/-- Consumers may settle any delivery they hold, in any order and more than once. -/
def streamConsumers : Machine StreamConsumers ConsumerAction where
  initial s := s = {}
  step s
    | .publish key attempt =>
        if attempt = 0 then none
        else some { s with transport := s.transport.publish key attempt }
    | .forget key => some { s with transport := s.transport.forget key }
    | .wait ms => some { s with transport := { s.transport with now := s.transport.now + ms } }
    | .receive consumer => (s.transport.receive consumer).map fun taken =>
        { s with transport := taken.2, handed := s.handed ++ [taken.1] }
    | .claim consumer receipt minIdleMs =>
        (s.transport.xautoclaim receipt minIdleMs).map fun taken =>
          { s with transport := taken.2, claims := s.claims ++ [⟨consumer, receipt, taken.1⟩] }
    | .count claim =>
        if claim ∉ s.claims then none
        else some { s with
          claims := s.claims.erase claim
          handed := s.handed ++ [⟨claim.message, claim.receipt, claim.consumer,
            s.transport.timesDelivered claim.receipt claim.message, true⟩] }
    | .acknowledge d =>
        if d ∉ s.handed then none
        else some { s with transport := (s.transport.acknowledge d).2 }
    | .retry d errorCode maxAttempts =>
        if d ∉ s.handed ∨ ¬ (1 ≤ maxAttempts ∧ maxAttempts ≤ 5) then none
        else some { s with transport := (s.transport.retry d errorCode maxAttempts).2 }

/-- A retry below the limit is of an entry that is still pending. -/
def retriesPending (s : StreamConsumers) : ConsumerAction → Bool
  | .retry d _ maxAttempts => d.exhausted maxAttempts || s.transport.isPending d.receipt
  | _ => true

open RedisStreamTransport

/-- Every consumer knows its message, and no publication has two live copies. -/
structure SingleCopies (s : StreamConsumers) : Prop where
  consistent : s.transport.Consistent
  single : s.transport.live.Nodup
  claims : ∀ claim ∈ s.claims, s.transport.Delivered claim.receipt claim.message ∧
    claim.message.publication < s.transport.publications
  handed : ∀ d ∈ s.handed, s.transport.Delivered d.receipt d.message ∧
    d.message.publication < s.transport.publications

namespace SingleCopies
variable {s t : StreamConsumers} {d : AgentMessageDelivery}

/-- A change of the transport that consumers do not notice. -/
theorem moved (copies : SingleCopies s) {u : RedisStreamTransport} (consistent : u.Consistent)
    (single : u.live.Nodup) (publications : s.transport.publications ≤ u.publications)
    (delivered : ∀ receipt message, s.transport.Delivered receipt message →
      u.Delivered receipt message) : SingleCopies { s with transport := u } where
  consistent := consistent
  single := single
  claims claim member := by
    obtain ⟨known, old⟩ := copies.claims claim member
    exact ⟨delivered _ _ known, old.trans_le publications⟩
  handed d member := by
    obtain ⟨known, old⟩ := copies.handed d member
    exact ⟨delivered _ _ known, old.trans_le publications⟩

theorem publish (copies : SingleCopies s) (key : String) (attempt : Nat) :
    SingleCopies { s with transport := s.transport.publish key attempt } :=
  copies.moved (copies.consistent.publish key attempt)
    (copies.consistent.single_publish copies.single key attempt)
    (publications_publish ..) fun _ _ known => known.publish key attempt

theorem receive (copies : SingleCopies s) {consumer : Nat} {u : RedisStreamTransport}
    (taken : s.transport.receive consumer = some (d, u)) :
    SingleCopies { s with transport := u, handed := s.handed ++ [d] } := by
  have moved := copies.consistent.live_receive taken
  have known := Delivered.received copies.consistent taken
  have kept := fun receipt message (before : s.transport.Delivered receipt message) =>
    before.receive copies.consistent taken
  obtain ⟨consistent, rest, waiting, -, rfl⟩ := copies.consistent.receive taken
  have base := copies.moved consistent (moved.nodup_iff.mpr copies.single) le_rfl kept
  refine ⟨consistent, base.single, base.claims, fun d' member => ?_⟩
  rcases List.mem_append.mp member with before | last
  · exact base.handed d' before
  · rw [List.mem_singleton.mp last]
    refine ⟨known, copies.consistent.old _ ?_⟩
    simp [live, waiting]

theorem claim (copies : SingleCopies s) {consumer receipt minIdleMs : Nat} {message : AgentMessage}
    {u : RedisStreamTransport}
    (claimed : s.transport.xautoclaim receipt minIdleMs = some (message, u)) :
    SingleCopies { s with
      transport := u, claims := s.claims ++ [⟨consumer, receipt, message⟩] } := by
  have known := Delivered.claimed copies.consistent claimed
  have kept := fun receipt message (before : s.transport.Delivered receipt message) =>
    before.xautoclaim copies.consistent claimed
  obtain ⟨consistent, live, -, -, publications, entry, pending, -, rfl, -⟩ :=
    copies.consistent.xautoclaim claimed
  have base := copies.moved consistent (live ▸ copies.single) publications.ge kept
  refine ⟨consistent, base.single, fun claim member => ?_, base.handed⟩
  rcases List.mem_append.mp member with before | last
  · exact base.claims claim before
  · rw [List.mem_singleton.mp last]
    refine ⟨known, publications ▸ copies.consistent.old _ ?_⟩
    exact List.mem_append_right _ (List.mem_map.mpr ⟨entry, pending, rfl⟩)

theorem count (copies : SingleCopies s) {claim : Claim} (member : claim ∈ s.claims)
    (deliveryCount : Nat) : SingleCopies { s with
      claims := s.claims.erase claim
      handed := s.handed ++
        [⟨claim.message, claim.receipt, claim.consumer, deliveryCount, true⟩] } where
  consistent := copies.consistent
  single := copies.single
  claims other kept := copies.claims other (List.mem_of_mem_erase kept)
  handed d held := by
    rcases List.mem_append.mp held with before | last
    · exact copies.handed d before
    · rw [List.mem_singleton.mp last]
      exact copies.claims claim member

theorem acknowledge (copies : SingleCopies s) (d : AgentMessageDelivery) :
    SingleCopies { s with transport := (s.transport.acknowledge d).2 } := by
  refine copies.moved (copies.consistent.xack d.receipt) ?_ le_rfl fun _ _ known =>
    known.xack d.receipt
  exact copies.single.sublist ((List.filter_sublist.map _).append_left _)

/-- A retry that keeps the condition adds no copy. -/
theorem copies_retry_le (copies : SingleCopies s) (held : d ∈ s.handed) {errorCode : String}
    {maxAttempts : Nat} (met : retriesPending s (.retry d errorCode maxAttempts) = true)
    (publication : Nat) :
    (s.transport.retry d errorCode maxAttempts).2.copies publication ≤
      s.transport.copies publication := by
  by_cases exhausted : d.exhausted maxAttempts = true
  · exact (live_buried exhausted errorCode).count_le publication
  · have pending : s.transport.isPending d.receipt = true := by
      simpa [retriesPending, exhausted] using met
    have same := live_requeue copies.consistent (copies.handed d held).1 pending exhausted errorCode
    exact (same.count_eq publication).le

theorem retry (copies : SingleCopies s) (held : d ∈ s.handed) {errorCode : String}
    {maxAttempts : Nat} (met : retriesPending s (.retry d errorCode maxAttempts) = true) :
    SingleCopies { s with transport := (s.transport.retry d errorCode maxAttempts).2 } := by
  have known := (copies.handed d held).2
  refine copies.moved (copies.consistent.retry known errorCode maxAttempts) ?_
    (publications_retry ..).ge fun _ _ before => before.retry d errorCode maxAttempts
  exact List.nodup_iff_count_le_one.mpr fun publication =>
    (copies.copies_retry_le held met publication).trans
      (List.nodup_iff_count_le_one.mp copies.single publication)

/-- A step that keeps the condition leaves single copies. -/
theorem step (copies : SingleCopies s) {action : ConsumerAction}
    (met : retriesPending s action = true) (stepped : streamConsumers.step s action = some t) :
    SingleCopies t := by
  cases action with
  | publish key attempt =>
      simp only [streamConsumers, Option.ite_none_left_eq_some, Option.some.injEq] at stepped
      obtain ⟨-, rfl⟩ := stepped
      exact copies.publish key attempt
  | forget key =>
      cases Option.some.inj stepped
      exact copies.moved { copies.consistent with } copies.single le_rfl fun _ _ known => known
  | wait ms =>
      cases Option.some.inj stepped
      exact copies.moved { copies.consistent with } copies.single le_rfl fun _ _ known => known
  | receive consumer =>
      simp only [streamConsumers, Option.map_eq_some_iff] at stepped
      obtain ⟨taken, received, rfl⟩ := stepped
      exact copies.receive received
  | claim consumer receipt minIdleMs =>
      simp only [streamConsumers, Option.map_eq_some_iff] at stepped
      obtain ⟨taken, claimed, rfl⟩ := stepped
      exact copies.claim claimed
  | count claim =>
      simp only [streamConsumers, Option.ite_none_left_eq_some, Option.some.injEq,
        not_not] at stepped
      obtain ⟨member, rfl⟩ := stepped
      exact copies.count member _
  | acknowledge d =>
      simp only [streamConsumers, Option.ite_none_left_eq_some, Option.some.injEq] at stepped
      obtain ⟨-, rfl⟩ := stepped
      exact copies.acknowledge d
  | retry d errorCode maxAttempts =>
      simp only [streamConsumers, Option.ite_none_left_eq_some, Option.some.injEq, not_or,
        not_not] at stepped
      obtain ⟨⟨held, -⟩, rfl⟩ := stepped
      exact copies.retry held met

theorem of_reachable
    (reached : (streamConsumers.restrict fun s a => retriesPending s a = true).Reachable s) :
    SingleCopies s := by
  refine reached.invariant ?_ ?_
  · rintro s rfl
    exact ⟨⟨.nil, by simp, .nil, by simp, by simp, by simp [live]⟩, .nil, by simp, by simp⟩
  · intro s action t copies stepped
    obtain ⟨met, stepped⟩ := Machine.restrict_step.mp stepped
    exact copies.step met stepped

end SingleCopies

/-- In a run whose retries below the limit are of pending entries a publication has at most one
live copy, and a next retry adds no copy exactly when it is one of these. -/
theorem copies_single {s : StreamConsumers}
    (reached : (streamConsumers.restrict fun s a => retriesPending s a = true).Reachable s) :
    (∀ publication, s.transport.copies publication ≤ 1) ∧
      ∀ d errorCode maxAttempts t,
        streamConsumers.step s (.retry d errorCode maxAttempts) = some t →
          ((∀ publication, t.transport.copies publication ≤ s.transport.copies publication) ↔
            retriesPending s (.retry d errorCode maxAttempts) = true) := by
  have copies := SingleCopies.of_reachable reached
  refine ⟨List.nodup_iff_count_le_one.mp copies.single, ?_⟩
  intro d errorCode maxAttempts t stepped
  simp only [streamConsumers, Option.ite_none_left_eq_some, Option.some.injEq, not_or,
    not_not] at stepped
  obtain ⟨⟨held, -⟩, rfl⟩ := stepped
  constructor
  · intro bounded
    by_contra broken
    simp only [retriesPending, Bool.or_eq_true, not_or, Bool.not_eq_true] at broken
    have added := live_stale broken.2 (Bool.not_eq_true _ ▸ broken.1) errorCode
    have more := added.count_eq d.message.publication
    rw [List.count_cons_self] at more
    have same := bounded d.message.publication
    simp only [RedisStreamTransport.copies] at same
    omega
  · intro met
    exact copies.copies_retry_le held met

/-- Consumer 1 reclaims the entry that consumer 0 read. -/
def sharedEntry : List ConsumerAction :=
  [.publish "task" 1, .receive 0, .wait 1000, .claim 1 0 1000, .count ⟨1, 0, ⟨0, "task", 1⟩⟩]

def firstHolder : AgentMessageDelivery := ⟨⟨0, "task", 1⟩, 0, 0, 1, false⟩

def secondHolder : AgentMessageDelivery := ⟨⟨0, "task", 1⟩, 0, 1, 2, true⟩

theorem copies_single_shared : ∃ s : StreamConsumers,
    s.transport.copies 0 ≤ 1 ∧ s.handed = [firstHolder, secondHolder] := by
  have ran : ∃ s, streamConsumers.run {} (sharedEntry ++ [.retry secondHolder "error" 3]) = some s ∧
      s.handed = [firstHolder, secondHolder] := by decide +kernel
  obtain ⟨s, ran, held⟩ := ran
  have met : streamConsumers.along retriesPending {}
      (sharedEntry ++ [.retry secondHolder "error" 3]) = true := by decide +kernel
  have reached := Machine.reachable_restrict_of_run _ rfl ran (Machine.meetsAlong_of_along met)
  exact ⟨s, (copies_single reached).1 0, held⟩

/-- Both holders of a reclaimed entry retry it. -/
theorem stale_retry_doubles :
    ¬ ∀ s, streamConsumers.Reachable s → ∀ publication, s.transport.copies publication ≤ 1 := by
  intro single
  have ran : ∃ s, streamConsumers.run {} (sharedEntry ++
      [.retry secondHolder "error" 3, .retry firstHolder "error" 3]) = some s ∧
        s.transport.copies 0 = 2 := by decide +kernel
  obtain ⟨s, ran, double⟩ := ran
  have bounded := single s (Machine.reachable_of_run _ rfl ran) 0
  omega

end MapGo.Transport
