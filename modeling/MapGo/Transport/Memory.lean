import MapGo.Transition
import MapGo.Transport.Worker

/-! The in-memory transport and its workers. A claim stays pending until it is acknowledged or
retried, and a retry of anything else is refused. -/
namespace MapGo.Transport

open Transition

structure MemoryClaim where
  delivery : AgentMessageDelivery
  claimedAt : Nat
  deriving DecidableEq, Repr

structure InMemoryTransport where
  now : Nat := 0
  queue : List AgentMessage := []
  /-- The claims by their receipts, in insertion order. -/
  pending : List MemoryClaim := []
  deadLetters : List DeadLetter := []
  published : List String := []
  publications : Nat := 0
  /-- Receipts handed out so far. -/
  receipts : Nat := 0
  deriving DecidableEq, Repr

namespace InMemoryTransport

/-- `publish`: a known idempotency key is a duplicate. -/
def publish (t : InMemoryTransport) (idempotencyKey : String) (attempt : Nat) : InMemoryTransport :=
  if idempotencyKey ∈ t.published then t
  else
    { t with
      queue := t.queue ++ [⟨t.publications, idempotencyKey, attempt⟩]
      published := t.published ++ [idempotencyKey]
      publications := t.publications + 1 }

/-- An idempotency key is over, by its time or by the limit on their number. -/
def forget (t : InMemoryTransport) (idempotencyKey : String) : InMemoryTransport :=
  { t with published := t.published.filter (· ≠ idempotencyKey) }

def receive (t : InMemoryTransport) (consumer : Nat) :
    Option (AgentMessageDelivery × InMemoryTransport) :=
  match t.queue with
  | [] => none
  | message :: rest =>
      let delivery : AgentMessageDelivery := ⟨message, t.receipts, consumer, message.attempt, false⟩
      some (delivery,
        { t with
          queue := rest
          pending := t.pending ++ [⟨delivery, t.now⟩]
          receipts := t.receipts + 1 })

def isPending (t : InMemoryTransport) (receipt : Nat) : Bool :=
  t.pending.any fun claim => claim.delivery.receipt = receipt

def remove (t : InMemoryTransport) (receipt : Nat) : InMemoryTransport :=
  { t with pending := t.pending.filter fun claim => claim.delivery.receipt ≠ receipt }

def acknowledge (t : InMemoryTransport) (d : AgentMessageDelivery) : Bool × InMemoryTransport :=
  (t.isPending d.receipt, t.remove d.receipt)

/-- `retry`; `none` is its `ValueError`. -/
def retry (t : InMemoryTransport) (d : AgentMessageDelivery) (errorCode : String)
    (maxAttempts : Nat) : Option (Disposition × InMemoryTransport) :=
  if ¬ t.isPending d.receipt then none
  else
    let t := t.remove d.receipt
    if d.exhausted maxAttempts then
      some (.dlq, { t with deadLetters := t.deadLetters ++ [deadLetterPayload d errorCode] })
    else some (.retry, { t with queue := t.queue ++ [d.message.next] })

/-- `reclaim` of the first stale claim. -/
def reclaim (t : InMemoryTransport) (consumer minIdleMs : Nat) :
    Option (AgentMessageDelivery × InMemoryTransport) :=
  (t.pending.find? fun claim => minIdleMs ≤ t.now - claim.claimedAt).map fun claim =>
    let delivery : AgentMessageDelivery := { claim.delivery with
      consumer := consumer
      deliveryCount := claim.delivery.deliveryCount + 1
      reclaimed := true }
    (delivery,
      { t with
        pending := t.pending.map fun other =>
          if other.delivery.receipt = delivery.receipt then ⟨delivery, t.now⟩ else other })

end InMemoryTransport

/-- A retry ends the run of the worker, also when it is refused. -/
def settleMemory (s : WorkerRun InMemoryTransport) (worker : Nat) (d : AgentMessageDelivery)
    (errorCode : String) (maxAttempts : Nat) : WorkerRun InMemoryTransport :=
  match s.transport.retry d errorCode maxAttempts with
  | none => s.put worker .idle
  | some (_, transport) => { s with transport := transport }.put worker .idle

/-- `AgentTaskWorker.run_once` by any number of workers, with crashes. -/
def memoryWorkers (agent : AgentTaskWorker) : Machine (WorkerRun InMemoryTransport) WorkerAction where
  initial s := s = { transport := {} }
  step s
    | .publish key attempt =>
        if attempt = 0 then none
        else some { s with transport := s.transport.publish key attempt }
    | .forget key => some { s with transport := s.transport.forget key }
    | .wait ms => some { s with transport := { s.transport with now := s.transport.now + ms } }
    | .receive worker =>
        if s.works worker ≠ .idle then none
        else (s.transport.receive worker).map fun taken =>
          { s with transport := taken.2 }.put worker (.delivered taken.1)
    | .reclaim worker receipt =>
        if s.works worker ≠ .idle then none
        else (s.transport.reclaim worker agent.reclaimIdleMs).bind fun taken =>
          if taken.1.receipt ≠ receipt then none
          else some ({ s with transport := taken.2 }.put worker (.delivered taken.1))
    | .count _ => none
    | .start worker =>
        match s.works worker with
        | .delivered d =>
            if agent.maxAttempts < d.deliveryCount then
              some (settleMemory s worker d "DELIVERY_LIMIT_EXCEEDED" agent.maxAttempts)
            else
              some ({ s with executions := s.executions ++ [d.message.publication] }.put worker
                (.handling d))
        | _ => none
    | .succeed worker =>
        match s.works worker with
        | .handling d =>
            some ({ s with transport := (s.transport.acknowledge d).2 }.put worker .idle)
        | _ => none
    | .fail worker errorCode =>
        match s.works worker with
        | .handling d => some (settleMemory s worker d errorCode agent.maxAttempts)
        | _ => none
    | .crash worker => some (s.put worker .idle)

namespace InMemoryTransport
variable {t u : InMemoryTransport} {d : AgentMessageDelivery} {consumer : Nat}

/-- Receipts are used once, and each publication has at most one live copy. -/
structure Consistent (t : InMemoryTransport) : Prop where
  receipts : (t.pending.map fun claim => claim.delivery.receipt).Nodup
  used : ∀ claim ∈ t.pending, claim.delivery.receipt < t.receipts
  queued : (t.queue.map AgentMessage.publication).Nodup
  claimed : (t.pending.map fun claim => claim.delivery.message.publication).Nodup
  apart : ∀ message ∈ t.queue, ∀ claim ∈ t.pending,
    message.publication ≠ claim.delivery.message.publication
  oldQueue : ∀ message ∈ t.queue, message.publication < t.publications
  oldPending : ∀ claim ∈ t.pending, claim.delivery.message.publication < t.publications

theorem isPending_iff {receipt : Nat} :
    t.isPending receipt = true ↔ ∃ claim ∈ t.pending, claim.delivery.receipt = receipt := by
  simp [isPending]

theorem mem_remove {claim : MemoryClaim} {receipt : Nat} :
    claim ∈ (t.remove receipt).pending ↔ claim ∈ t.pending ∧ claim.delivery.receipt ≠ receipt := by
  simp [remove]

namespace Consistent

theorem same_receipt (consistent : t.Consistent) {a b : MemoryClaim} (left : a ∈ t.pending)
    (right : b ∈ t.pending) (same : a.delivery.receipt = b.delivery.receipt) : a = b :=
  List.inj_on_of_nodup_map consistent.receipts left right same

theorem same_publication (consistent : t.Consistent) {a b : MemoryClaim} (left : a ∈ t.pending)
    (right : b ∈ t.pending)
    (same : a.delivery.message.publication = b.delivery.message.publication) : a = b :=
  List.inj_on_of_nodup_map consistent.claimed left right same

theorem publish (consistent : t.Consistent) (key : String) (attempt : Nat) :
    (t.publish key attempt).Consistent := by
  unfold InMemoryTransport.publish
  split
  · exact consistent
  · constructor
    case receipts => exact consistent.receipts
    case used => exact consistent.used
    case queued =>
      rw [List.map_append]
      refine List.nodup_append.mpr ⟨consistent.queued, List.nodup_singleton _, ?_⟩
      intro p old q new same
      obtain ⟨message, member, rfl⟩ := List.mem_map.mp old
      have fresh := consistent.oldQueue message member
      simp only [List.map_cons, List.map_nil, List.mem_singleton] at new
      omega
    case claimed => exact consistent.claimed
    case apart =>
      intro message member claim pending
      rcases List.mem_append.mp member with old | new
      · exact consistent.apart message old claim pending
      · rw [List.mem_singleton.mp new]
        exact (consistent.oldPending claim pending).ne'
    case oldQueue =>
      intro message member
      rcases List.mem_append.mp member with old | new
      · exact Nat.lt_succ_of_lt (consistent.oldQueue message old)
      · rw [List.mem_singleton.mp new]
        exact Nat.lt_succ_self _
    case oldPending =>
      intro claim pending
      exact Nat.lt_succ_of_lt (consistent.oldPending claim pending)

theorem remove (consistent : t.Consistent) (receipt : Nat) : (t.remove receipt).Consistent where
  receipts := consistent.receipts.sublist (List.filter_sublist.map _)
  used claim pending := consistent.used claim (mem_remove.mp pending).1
  queued := consistent.queued
  claimed := consistent.claimed.sublist (List.filter_sublist.map _)
  apart message member claim pending := consistent.apart message member claim (mem_remove.mp pending).1
  oldQueue := consistent.oldQueue
  oldPending claim pending := consistent.oldPending claim (mem_remove.mp pending).1

theorem receive (consistent : t.Consistent) (taken : t.receive consumer = some (d, u)) :
    u.Consistent ∧ ∃ rest, t.queue = d.message :: rest ∧ d.receipt = t.receipts ∧
      d.deliveryCount = d.message.attempt ∧
      u = { t with
        queue := rest, pending := t.pending ++ [⟨d, t.now⟩], receipts := t.receipts + 1 } := by
  unfold InMemoryTransport.receive at taken
  split at taken
  · contradiction
  · rename_i message rest waiting
    simp only [Option.some.injEq, Prod.mk.injEq] at taken
    obtain ⟨rfl, rfl⟩ := taken
    refine ⟨?_, rest, waiting, rfl, rfl, rfl⟩
    have queued := consistent.queued
    rw [waiting, List.map_cons] at queued
    obtain ⟨fresh, others⟩ := List.nodup_cons.mp queued
    have head : message ∈ t.queue := waiting ▸ List.mem_cons_self
    have tail {other} (member : other ∈ rest) : other ∈ t.queue :=
      waiting ▸ List.mem_cons_of_mem _ member
    constructor
    case receipts =>
      rw [List.map_append]
      refine List.nodup_append.mpr ⟨consistent.receipts, List.nodup_singleton _, ?_⟩
      intro r old q new same
      obtain ⟨claim, pending, rfl⟩ := List.mem_map.mp old
      have used := consistent.used claim pending
      simp only [List.map_cons, List.map_nil, List.mem_singleton] at new
      omega
    case used =>
      intro claim pending
      rcases List.mem_append.mp pending with old | new
      · exact Nat.lt_succ_of_lt (consistent.used claim old)
      · rw [List.mem_singleton.mp new]
        exact Nat.lt_succ_self _
    case queued => exact others
    case claimed =>
      rw [List.map_append]
      refine List.nodup_append.mpr ⟨consistent.claimed, List.nodup_singleton _, ?_⟩
      intro p old q new same
      obtain ⟨claim, pending, rfl⟩ := List.mem_map.mp old
      rw [List.mem_singleton.mp new] at same
      exact consistent.apart message head claim pending same.symm
    case apart =>
      intro other member claim pending same
      rcases List.mem_append.mp pending with old | new
      · exact consistent.apart other (tail member) claim old same
      · rw [List.mem_singleton.mp new] at same
        exact fresh (List.mem_map.mpr ⟨other, member, same⟩)
    case oldQueue => exact fun other member => consistent.oldQueue other (tail member)
    case oldPending =>
      intro claim pending
      rcases List.mem_append.mp pending with old | new
      · exact consistent.oldPending claim old
      · rw [List.mem_singleton.mp new]
        exact consistent.oldQueue message head

/-- A claim that is retried below the limit goes back to the queue with the next attempt. -/
theorem requeue (consistent : t.Consistent) {claim : MemoryClaim} (pending : claim ∈ t.pending)
    (receipt : claim.delivery.receipt = d.receipt) (message : claim.delivery.message = d.message) :
    { t.remove d.receipt with queue := t.queue ++ [d.message.next] }.Consistent := by
  have removed := consistent.remove d.receipt
  constructor
  case receipts => exact removed.receipts
  case used => exact removed.used
  case queued =>
    rw [List.map_append]
    refine List.nodup_append.mpr ⟨consistent.queued, List.nodup_singleton _, ?_⟩
    intro p old q new same
    obtain ⟨other, member, rfl⟩ := List.mem_map.mp old
    rw [List.mem_singleton.mp new] at same
    exact consistent.apart other member claim pending (message ▸ same)
  case claimed => exact removed.claimed
  case apart =>
    intro other member kept still same
    obtain ⟨old, apart⟩ := mem_remove.mp still
    rcases List.mem_append.mp member with queued | new
    · exact consistent.apart other queued kept old same
    · rw [List.mem_singleton.mp new] at same
      have twin := consistent.same_publication pending old (message ▸ same)
      exact apart (twin ▸ receipt)
  case oldQueue =>
    intro other member
    rcases List.mem_append.mp member with queued | new
    · exact consistent.oldQueue other queued
    · rw [List.mem_singleton.mp new]
      exact message ▸ consistent.oldPending claim pending
  case oldPending => exact removed.oldPending

theorem reclaim {minIdleMs : Nat} (consistent : t.Consistent)
    (taken : t.reclaim consumer minIdleMs = some (d, u)) :
    u.Consistent ∧ ∃ claim ∈ t.pending, d.receipt = claim.delivery.receipt ∧
      d.message = claim.delivery.message ∧ d.deliveryCount = claim.delivery.deliveryCount + 1 ∧
      u.queue = t.queue ∧ u.receipts = t.receipts ∧ u.publications = t.publications ∧
      ∀ kept ∈ u.pending, kept.delivery = d ∨
        (kept ∈ t.pending ∧ kept.delivery.receipt ≠ claim.delivery.receipt) := by
  simp only [InMemoryTransport.reclaim, Option.map_eq_some_iff, Prod.mk.injEq] at taken
  obtain ⟨claim, found, rfl, rfl⟩ := taken
  have pending := List.mem_of_find?_eq_some found
  let renewed : MemoryClaim := ⟨{ claim.delivery with
    consumer := consumer
    deliveryCount := claim.delivery.deliveryCount + 1
    reclaimed := true }, t.now⟩
  let replace (other : MemoryClaim) : MemoryClaim :=
    if other.delivery.receipt = claim.delivery.receipt then renewed else other
  have receipts (other : MemoryClaim) :
      (replace other).delivery.receipt = other.delivery.receipt := by
    by_cases same : other.delivery.receipt = claim.delivery.receipt
    · simp [replace, renewed, same]
    · simp [replace, same]
  have publications {other : MemoryClaim} (member : other ∈ t.pending) :
      (replace other).delivery.message.publication = other.delivery.message.publication := by
    by_cases same : other.delivery.receipt = claim.delivery.receipt
    · simp [replace, renewed, consistent.same_receipt member pending same]
    · simp [replace, same]
  have kept {other : MemoryClaim} (member : other ∈ t.pending.map replace) :
      ∃ old ∈ t.pending, replace old = other := List.mem_map.mp member
  refine ⟨?_, claim, pending, rfl, rfl, rfl, rfl, rfl, rfl, ?_⟩
  · constructor
    case receipts =>
      show ((t.pending.map replace).map fun claim => claim.delivery.receipt).Nodup
      rw [List.map_map]
      exact (List.map_congr_left fun other _ => receipts other) ▸ consistent.receipts
    case used =>
      intro other member
      obtain ⟨old, was, rfl⟩ := kept member
      rw [receipts old]
      exact consistent.used old was
    case queued => exact consistent.queued
    case claimed =>
      show ((t.pending.map replace).map fun claim => claim.delivery.message.publication).Nodup
      rw [List.map_map]
      exact (List.map_congr_left fun other member => publications member) ▸ consistent.claimed
    case apart =>
      intro message waiting other member
      obtain ⟨old, was, rfl⟩ := kept member
      rw [publications was]
      exact consistent.apart message waiting old was
    case oldQueue => exact consistent.oldQueue
    case oldPending =>
      intro other member
      obtain ⟨old, was, rfl⟩ := kept member
      rw [publications was]
      exact consistent.oldPending old was
  · intro other member
    obtain ⟨old, was, rfl⟩ := kept member
    by_cases same : old.delivery.receipt = claim.delivery.receipt
    · exact .inl (by simp [replace, renewed, same])
    · rw [show replace old = old from if_neg same]
      exact .inr ⟨was, same⟩

end Consistent
end InMemoryTransport

/-- A handler's failure is requeued only while its claim was never reclaimed. -/
def requeuesUnreclaimed (agent : AgentTaskWorker) (s : WorkerRun InMemoryTransport) : WorkerAction → Bool
  | .fail worker _ => match s.works worker with
    | .handling d => d.exhausted agent.maxAttempts || s.transport.pending.all fun claim =>
        claim.delivery.receipt ≠ d.receipt || claim.delivery.deliveryCount = d.message.attempt
    | _ => true
  | _ => true

open Attempts

/-- The numbers that the copies of a publication will issue lie above those of its ledger, and a
worker retries the message that its claim holds. -/
structure MemoryLedger (agent : AgentTaskWorker) (s : WorkerRun InMemoryTransport)
    (l : Ledger Nat Nat) : Prop where
  consistent : s.transport.Consistent
  numbered : Numbered agent s l
  fresh : ∀ publication, s.transport.publications ≤ publication → l.issued publication = 0
  queue : ∀ message ∈ s.transport.queue, l.issued message.publication < message.attempt
  pending : ∀ claim ∈ s.transport.pending,
    l.issued claim.delivery.message.publication ≤ claim.delivery.deliveryCount
  claims : ∀ worker d, s.works worker = .delivered d ∨ s.works worker = .handling d →
    d.receipt < s.transport.receipts ∧ ∀ claim ∈ s.transport.pending,
      claim.delivery.receipt = d.receipt → claim.delivery.message = d.message

namespace MemoryLedger
variable {agent : AgentTaskWorker} {s t : WorkerRun InMemoryTransport} {l : Ledger Nat Nat}
  {worker : Nat} {d : AgentMessageDelivery}

/-- A worker that gives up its delivery. -/
theorem idle (ledger : MemoryLedger agent s l) (worker : Nat) :
    MemoryLedger agent (s.put worker .idle) (l.drop worker) where
  consistent := ledger.consistent
  numbered := ledger.numbered.idle worker
  fresh := ledger.fresh
  queue := ledger.queue
  pending := ledger.pending
  claims other d work := by
    by_cases same : other = worker
    · simp [same] at work
    · rw [put_works_of_ne s _ same] at work
      exact ledger.claims other d work

/-- A change of the transport alone that adds no claim. -/
theorem moved (ledger : MemoryLedger agent s l) {u : InMemoryTransport} (consistent : u.Consistent)
    (publications : s.transport.publications ≤ u.publications)
    (receipts : u.receipts = s.transport.receipts)
    (queue : ∀ message ∈ u.queue, l.issued message.publication < message.attempt)
    (pending : ∀ claim ∈ u.pending, claim ∈ s.transport.pending) :
    MemoryLedger agent { s with transport := u } l where
  consistent := consistent
  numbered := { ledger.numbered with }
  fresh publication unused := ledger.fresh publication (publications.trans unused)
  queue := queue
  pending claim member := ledger.pending claim (pending claim member)
  claims worker d work := by
    obtain ⟨used, same⟩ := ledger.claims worker d work
    exact ⟨receipts ▸ used, fun claim member => same claim (pending claim member)⟩

theorem publish (ledger : MemoryLedger agent s l) (key : String) {attempt : Nat}
    (positive : 0 < attempt) :
    MemoryLedger agent { s with transport := s.transport.publish key attempt } l := by
  have consistent := ledger.consistent.publish key attempt
  unfold InMemoryTransport.publish at consistent ⊢
  split at consistent
  · rename_i known
    rw [if_pos known]
    exact ledger
  · rename_i new
    rw [if_neg new]
    refine ledger.moved consistent (Nat.le_succ _) rfl ?_ fun _ kept => kept
    intro message member
    rcases List.mem_append.mp member with old | new
    · exact ledger.queue message old
    · rw [List.mem_singleton.mp new, ledger.fresh _ le_rfl]
      exact positive

/-- A copy of a publication is handed to a worker, with the next number. -/
theorem issued (ledger : MemoryLedger agent s l) (worker : Nat) {u : InMemoryTransport}
    (consistent : u.Consistent) (publications : u.publications = s.transport.publications)
    (receipts : s.transport.receipts ≤ u.receipts) (used : d.receipt < u.receipts)
    (known : d.message.publication < s.transport.publications)
    (number : l.issued d.message.publication < d.deliveryCount)
    (queue : ∀ message ∈ u.queue, message ∈ s.transport.queue ∧
      message.publication ≠ d.message.publication)
    (pending : ∀ claim ∈ u.pending, claim.delivery = d ∨ (claim ∈ s.transport.pending ∧
      claim.delivery.message.publication ≠ d.message.publication ∧ claim.delivery.receipt ≠ d.receipt))
    (others : ∀ other d', (s.works other = .delivered d' ∨ s.works other = .handling d') →
      d'.receipt = d.receipt → d.message = d'.message) :
    MemoryLedger agent ({ s with transport := u }.put worker (.delivered d))
      (l.issue worker d.message.publication) where
  consistent := consistent
  numbered := by
    have moved : Numbered agent { s with transport := u } l := { ledger.numbered with }
    refine moved.issue worker d.message.publication fun d' same => ?_
    cases same
    exact ⟨rfl, number.trans_le⟩
  fresh publication unused := by
    have apart : publication ≠ d.message.publication := by
      rintro rfl
      exact absurd (publications ▸ unused) (by omega)
    simpa [Ledger.issue, apart] using ledger.fresh publication (publications ▸ unused)
  queue message member := by
    obtain ⟨old, apart⟩ := queue message member
    simpa [Ledger.issue, apart] using ledger.queue message old
  pending claim member := by
    rcases pending claim member with same | ⟨old, apart, -⟩
    · rw [same]
      simpa [Ledger.issue] using number
    · simpa [Ledger.issue, apart] using ledger.pending claim old
  claims other d' work := by
    by_cases same : other = worker
    · subst same
      simp only [put_works_self, Work.delivered.injEq, reduceCtorEq, or_false] at work
      subst work
      refine ⟨used, fun claim member receipt => ?_⟩
      rcases pending claim member with same | ⟨-, -, apart⟩
      · rw [same]
      · exact absurd receipt apart
    · rw [put_works_of_ne _ _ same] at work
      obtain ⟨before, same_message⟩ := ledger.claims other d' work
      refine ⟨before.trans_le receipts, fun claim member receipt => ?_⟩
      rcases pending claim member with same | ⟨old, -⟩
      · rw [same] at receipt ⊢
        exact others other d' work receipt.symm
      · exact same_message claim old receipt

theorem receive (ledger : MemoryLedger agent s l) {u : InMemoryTransport}
    (taken : s.transport.receive worker = some (d, u)) :
    MemoryLedger agent ({ s with transport := u }.put worker (.delivered d))
      (l.issue worker d.message.publication) := by
  obtain ⟨consistent, rest, waiting, receipt, count, rfl⟩ := ledger.consistent.receive taken
  have head : d.message ∈ s.transport.queue := waiting ▸ List.mem_cons_self
  refine ledger.issued worker consistent rfl (Nat.le_succ _) (receipt ▸ Nat.lt_succ_self _)
    (ledger.consistent.oldQueue _ head) (count ▸ ledger.queue _ head) ?_ ?_ ?_
  · intro message member
    have queued := ledger.consistent.queued
    rw [waiting, List.map_cons] at queued
    refine ⟨waiting ▸ List.mem_cons_of_mem _ member, fun same => ?_⟩
    exact (List.nodup_cons.mp queued).1 (List.mem_map.mpr ⟨message, member, same⟩)
  · intro claim member
    rcases List.mem_append.mp member with old | new
    · refine .inr ⟨old, (ledger.consistent.apart _ head claim old).symm, ?_⟩
      exact receipt ▸ (ledger.consistent.used claim old).ne
    · exact .inl (List.mem_singleton.mp new ▸ rfl)
  · intro other d' work same
    have used := (ledger.claims other d' work).1
    omega

theorem reclaim (ledger : MemoryLedger agent s l) {u : InMemoryTransport} {minIdleMs : Nat}
    (taken : s.transport.reclaim worker minIdleMs = some (d, u)) :
    MemoryLedger agent ({ s with transport := u }.put worker (.delivered d))
      (l.issue worker d.message.publication) := by
  obtain ⟨consistent, claim, pending, receipt, message, count, queue, receipts, publications,
    kept⟩ := ledger.consistent.reclaim taken
  have bound := ledger.pending claim pending
  refine ledger.issued worker consistent publications receipts.ge ?_ ?_ ?_ ?_ ?_ ?_
  · rw [receipt, receipts]
    exact ledger.consistent.used claim pending
  · rw [message]
    exact ledger.consistent.oldPending claim pending
  · rw [message, count]
    omega
  · intro other member
    rw [queue] at member
    exact ⟨member, message ▸ ledger.consistent.apart other member claim pending⟩
  · intro other member
    rcases kept other member with same | ⟨old, apart⟩
    · exact .inl same
    · refine .inr ⟨old, fun same => ?_, receipt ▸ apart⟩
      rw [message] at same
      exact apart (ledger.consistent.same_publication old pending same ▸ rfl)
  · intro other d' work same
    rw [message]
    exact (ledger.claims other d' work).2 claim pending (same.trans receipt).symm

theorem settle (ledger : MemoryLedger agent s l) {errorCode : String}
    (work : s.works worker = .delivered d ∨ s.works worker = .handling d)
    (unreclaimed : d.exhausted agent.maxAttempts = true ∨ ∀ claim ∈ s.transport.pending,
      claim.delivery.receipt = d.receipt → claim.delivery.deliveryCount = d.message.attempt) :
    MemoryLedger agent (settleMemory s worker d errorCode agent.maxAttempts) (l.drop worker) := by
  unfold settleMemory InMemoryTransport.retry
  split
  · exact ledger.idle worker
  · rename_i found
    split at found
    · contradiction
    · rename_i pending
      obtain ⟨claim, member, receipt⟩ := InMemoryTransport.isPending_iff.mp (not_not.mp pending)
      have message := (ledger.claims worker d work).2 claim member receipt
      have kept := fun other (still : other ∈ (s.transport.remove d.receipt).pending) =>
        (InMemoryTransport.mem_remove.mp still).1
      dsimp only at found
      split at found
      · cases found
        have removed := ledger.consistent.remove d.receipt
        have buried : { s.transport.remove d.receipt with deadLetters :=
            s.transport.deadLetters ++ [deadLetterPayload d errorCode] }.Consistent :=
          { removed with }
        exact (ledger.moved buried le_rfl rfl ledger.queue kept).idle worker
      · rename_i below
        cases found
        refine (ledger.moved (ledger.consistent.requeue member receipt message) le_rfl rfl ?_
          kept).idle worker
        intro other waiting
        rcases List.mem_append.mp waiting with old | new
        · exact ledger.queue other old
        · have bound := ledger.pending claim member
          have count := (unreclaimed.resolve_left below) claim member receipt
          rw [List.mem_singleton.mp new]
          simp only [AgentMessage.next]
          rw [message] at bound
          omega

theorem start (ledger : MemoryLedger agent s l) (work : s.works worker = .delivered d)
    (small : d.deliveryCount ≤ agent.maxAttempts) :
    MemoryLedger agent ({ s with executions := s.executions ++ [d.message.publication] }.put worker
      (.handling d)) (l.start worker) where
  consistent := ledger.consistent
  numbered := ledger.numbered.start work small
  fresh := ledger.fresh
  queue := ledger.queue
  pending := ledger.pending
  claims other d' work' := by
    by_cases same : other = worker
    · simp only [same, put_works_self, reduceCtorEq, Work.handling.injEq, false_or] at work'
      subst work'
      exact ledger.claims worker d (.inl work)
    · rw [put_works_of_ne _ _ same] at work'
      exact ledger.claims other d' work'

end MemoryLedger

/-- A step that keeps the condition advances the ledger of the run. -/
theorem memory_step {agent : AgentTaskWorker} {s t : WorkerRun InMemoryTransport} {action : WorkerAction}
    {l : Ledger Nat Nat} (ledger : MemoryLedger agent s l) (met : requeuesUnreclaimed agent s action = true)
    (stepped : (memoryWorkers agent).step s action = some t) :
    ∃ next, MemoryLedger agent t next := by
  cases action with
  | publish key attempt =>
      simp only [memoryWorkers, Option.ite_none_left_eq_some, Option.some.injEq] at stepped
      obtain ⟨positive, rfl⟩ := stepped
      exact ⟨l, ledger.publish key (Nat.pos_of_ne_zero positive)⟩
  | forget key =>
      cases Option.some.inj stepped
      have forgot : (s.transport.forget key).Consistent := { ledger.consistent with }
      exact ⟨l, ledger.moved forgot le_rfl rfl ledger.queue fun _ kept => kept⟩
  | wait ms =>
      cases Option.some.inj stepped
      have waited : { s.transport with now := s.transport.now + ms }.Consistent :=
        { ledger.consistent with }
      exact ⟨l, ledger.moved waited le_rfl rfl ledger.queue fun _ kept => kept⟩
  | receive worker =>
      simp only [memoryWorkers, Option.ite_none_left_eq_some, Option.map_eq_some_iff] at stepped
      obtain ⟨-, taken, received, rfl⟩ := stepped
      exact ⟨_, ledger.receive received⟩
  | reclaim worker receipt =>
      simp only [memoryWorkers, Option.ite_none_left_eq_some, Option.bind_eq_some_iff,
        Option.some.injEq] at stepped
      obtain ⟨-, taken, reclaimed, -, rfl⟩ := stepped
      exact ⟨_, ledger.reclaim reclaimed⟩
  | count worker => contradiction
  | start worker =>
      simp only [memoryWorkers] at stepped
      split at stepped
      · rename_i d work
        split at stepped
        · rename_i beyond
          cases stepped
          exact ⟨_, ledger.settle (.inl work) (.inl (by simp [AgentMessageDelivery.exhausted]; omega))⟩
        · rename_i small
          cases stepped
          exact ⟨_, ledger.start work (not_lt.mp small)⟩
      · contradiction
  | succeed worker =>
      simp only [memoryWorkers] at stepped
      split at stepped
      · rename_i d work
        cases stepped
        have kept := fun other (still : other ∈ (s.transport.remove d.receipt).pending) =>
          (InMemoryTransport.mem_remove.mp still).1
        exact ⟨_, (ledger.moved (ledger.consistent.remove d.receipt) le_rfl rfl ledger.queue kept).idle
          worker⟩
      · contradiction
  | fail worker errorCode =>
      simp only [memoryWorkers] at stepped
      split at stepped
      · rename_i d work
        cases stepped
        simp only [requeuesUnreclaimed, work, Bool.or_eq_true, List.all_eq_true,
          decide_eq_true_eq, ne_eq] at met
        refine ⟨_, ledger.settle (.inr work) (met.imp_right fun unreclaimed claim member same => ?_)⟩
        exact (unreclaimed claim member).resolve_left (not_not.mpr same)
      · contradiction
  | crash worker =>
      cases Option.some.inj stepped
      exact ⟨_, ledger.idle worker⟩

theorem memory_start {agent : AgentTaskWorker} :
    MemoryLedger agent { transport := {} } .empty where
  consistent := ⟨.nil, by simp, .nil, .nil, by simp, by simp, by simp⟩
  numbered := ⟨Ledger.sound_empty, rfl, by simp⟩
  fresh _ _ := rfl
  queue := by simp
  pending := by simp
  claims := by simp

theorem memory_bounded {agent : AgentTaskWorker} {s : WorkerRun InMemoryTransport}
    (reached : ((memoryWorkers agent).restrict fun s a =>
      requeuesUnreclaimed agent s a = true).Reachable s)
    (publication : Nat) : s.executions.count publication ≤ agent.maxAttempts := by
  have tracked : ∃ l, MemoryLedger agent s l := by
    refine Machine.Reachable.invariant (P := fun s => ∃ l, MemoryLedger agent s l) ?_ ?_ reached
    · rintro s rfl
      exact ⟨.empty, memory_start⟩
    · rintro s action t ⟨l, ledger⟩ stepped
      obtain ⟨met, stepped⟩ := Machine.restrict_step.mp stepped
      exact memory_step ledger met stepped
  obtain ⟨l, ledger⟩ := tracked
  exact ledger.numbered.executions_le publication

end MapGo.Transport
