import MapGo.Transition
import MapGo.Transport.Schema

/-! The Redis stream transport: unread entries, the pending entries of the consumer group with
their delivery counts, and dead letters. A retry acknowledges and adds in one transaction, whether
or not the entry is still pending, so only retries of pending entries keep a publication at one
live copy. -/
namespace MapGo.Transport

open Transition

structure StreamEntry where
  id : Nat
  message : AgentMessage
  deriving DecidableEq, Repr

structure PendingEntry where
  id : Nat
  message : AgentMessage
  timesDelivered : Nat
  deliveredAt : Nat
  deriving DecidableEq, Repr

structure RedisStreamTransport where
  now : Nat := 0
  /-- Entries behind the last one delivered to the group. -/
  unread : List StreamEntry := []
  pending : List PendingEntry := []
  deadLetters : List DeadLetter := []
  published : List String := []
  publications : Nat := 0
  /-- Entry ids given so far. -/
  entries : Nat := 0
  deriving DecidableEq, Repr

namespace RedisStreamTransport

def xadd (t : RedisStreamTransport) (message : AgentMessage) : RedisStreamTransport :=
  { t with unread := t.unread ++ [⟨t.entries, message⟩], entries := t.entries + 1 }

/-- `_PUBLISH_SCRIPT` -/
def publish (t : RedisStreamTransport) (idempotencyKey : String) (attempt : Nat) :
    RedisStreamTransport :=
  if idempotencyKey ∈ t.published then t
  else
    { t.xadd ⟨t.publications, idempotencyKey, attempt⟩ with
      published := t.published ++ [idempotencyKey]
      publications := t.publications + 1 }

/-- An idempotency key expires. -/
def forget (t : RedisStreamTransport) (idempotencyKey : String) : RedisStreamTransport :=
  { t with published := t.published.filter (· ≠ idempotencyKey) }

/-- `XREADGROUP` of one new entry. -/
def receive (t : RedisStreamTransport) (consumer : Nat) :
    Option (AgentMessageDelivery × RedisStreamTransport) :=
  match t.unread with
  | [] => none
  | entry :: rest => some
      (⟨entry.message, entry.id, consumer, entry.message.attempt, false⟩,
        { t with
          unread := rest
          pending := t.pending ++ [⟨entry.id, entry.message, 1, t.now⟩] })

def isPending (t : RedisStreamTransport) (receipt : Nat) : Bool :=
  t.pending.any fun entry => entry.id = receipt

def xack (t : RedisStreamTransport) (receipt : Nat) : RedisStreamTransport :=
  { t with pending := t.pending.filter fun entry => entry.id ≠ receipt }

def acknowledge (t : RedisStreamTransport) (d : AgentMessageDelivery) :
    Bool × RedisStreamTransport :=
  (t.isPending d.receipt, t.xack d.receipt)

/-- `retry`: acknowledge and add, in one transaction. -/
def retry (t : RedisStreamTransport) (d : AgentMessageDelivery) (errorCode : String)
    (maxAttempts : Nat) : Disposition × RedisStreamTransport :=
  let t := t.xack d.receipt
  if d.exhausted maxAttempts then
    (.dlq, { t with deadLetters := t.deadLetters ++ [deadLetterPayload d errorCode] })
  else (.retry, t.xadd d.message.next)

/-- `XAUTOCLAIM` of one idle entry. -/
def xautoclaim (t : RedisStreamTransport) (receipt minIdleMs : Nat) :
    Option (AgentMessage × RedisStreamTransport) :=
  (t.pending.find? fun entry => entry.id = receipt ∧ minIdleMs ≤ t.now - entry.deliveredAt).map
    fun entry => (entry.message,
      { t with
        pending := t.pending.map fun other =>
          if other.id = receipt then
            { other with timesDelivered := other.timesDelivered + 1, deliveredAt := t.now }
          else other })

/-- The delivery count that `reclaim` reads by `XPENDING` after its claim. -/
def timesDelivered (t : RedisStreamTransport) (receipt : Nat) (message : AgentMessage) : Nat :=
  match t.pending.find? fun entry => entry.id = receipt with
  | some entry => if entry.timesDelivered = 0 then message.attempt else entry.timesDelivered
  | none => message.attempt

/-- The publications of the live copies: unread and pending entries. -/
def live (t : RedisStreamTransport) : List Nat :=
  t.unread.map (fun entry => entry.message.publication) ++
    t.pending.map fun entry => entry.message.publication

/-- The live copies of a publication. -/
def copies (t : RedisStreamTransport) (publication : Nat) : Nat := t.live.count publication

/-- Entry ids are used once. -/
structure Consistent (t : RedisStreamTransport) : Prop where
  pendingIds : (t.pending.map PendingEntry.id).Nodup
  usedPending : ∀ entry ∈ t.pending, entry.id < t.entries
  unreadIds : (t.unread.map StreamEntry.id).Nodup
  usedUnread : ∀ entry ∈ t.unread, entry.id < t.entries
  apart : ∀ entry ∈ t.unread, ∀ other ∈ t.pending, entry.id ≠ other.id
  old : ∀ publication ∈ t.live, publication < t.publications

variable {t u : RedisStreamTransport} {d : AgentMessageDelivery} {message : AgentMessage}
  {receipt consumer maxAttempts : Nat}

theorem isPending_iff :
    t.isPending receipt = true ↔ ∃ entry ∈ t.pending, entry.id = receipt := by
  simp [isPending]

theorem mem_xack {entry : PendingEntry} :
    entry ∈ (t.xack receipt).pending ↔ entry ∈ t.pending ∧ entry.id ≠ receipt := by
  simp [xack]

theorem live_xadd : (t.xadd message).live.Perm (message.publication :: t.live) := by
  simp only [live, xadd, List.map_append, List.map_cons, List.map_nil, List.append_assoc,
    List.singleton_append]
  exact List.perm_middle

theorem live_xack_absent (absent : ∀ entry ∈ t.pending, entry.id ≠ receipt) :
    t.xack receipt = t := by
  have same : t.pending.filter (fun entry => decide (entry.id ≠ receipt)) = t.pending :=
    List.filter_eq_self.mpr fun entry member => decide_eq_true (absent entry member)
  simp only [xack, same]

theorem apart_publication (single : t.live.Nodup) {entry : StreamEntry} {other : PendingEntry}
    (left : entry ∈ t.unread) (right : other ∈ t.pending) :
    entry.message.publication ≠ other.message.publication :=
  (List.nodup_append.mp single).2.2 _ (List.mem_map.mpr ⟨entry, left, rfl⟩) _
    (List.mem_map.mpr ⟨other, right, rfl⟩)

theorem same_publication (single : t.live.Nodup) {a b : PendingEntry} (left : a ∈ t.pending)
    (right : b ∈ t.pending) (same : a.message.publication = b.message.publication) : a = b :=
  List.inj_on_of_nodup_map (List.nodup_append.mp single).2.1 left right same

namespace Consistent

theorem same_id (consistent : t.Consistent) {a b : PendingEntry} (left : a ∈ t.pending)
    (right : b ∈ t.pending) (same : a.id = b.id) : a = b :=
  List.inj_on_of_nodup_map consistent.pendingIds left right same

theorem timesDelivered_eq (consistent : t.Consistent) {entry : PendingEntry}
    (member : entry ∈ t.pending) (positive : 1 ≤ entry.timesDelivered) (message : AgentMessage) :
    t.timesDelivered entry.id message = entry.timesDelivered := by
  obtain ⟨found, search⟩ : ∃ found, t.pending.find? (fun other => decide (other.id = entry.id)) =
      some found := Option.isSome_iff_exists.mp (List.find?_isSome.mpr ⟨entry, member, by simp⟩)
  have same := consistent.same_id (List.mem_of_find?_eq_some search) member
    (by simpa using List.find?_some search)
  subst same
  simp only [RedisStreamTransport.timesDelivered, search]
  exact if_neg (by omega)

/-- An acknowledgement removes the entry of that id and no other. -/
theorem live_xack (consistent : t.Consistent) {entry : PendingEntry} (member : entry ∈ t.pending) :
    t.live.Perm (entry.message.publication :: (t.xack entry.id).live) := by
  have others : t.pending.filter (fun other => decide (other.id ≠ entry.id)) =
      t.pending.erase entry := by
    rw [List.Nodup.erase_eq_filter (List.Nodup.of_map _ consistent.pendingIds)]
    refine List.filter_congr fun other present => ?_
    by_cases same : other = entry
    · simp [same]
    · have apart : other.id ≠ entry.id := fun id => same (consistent.same_id present member id)
      simp [same, apart]
  have split := (List.perm_cons_erase member).map fun other => other.message.publication
  simp only [live, xack, others]
  exact (split.append_left _).trans List.perm_middle

theorem xack (consistent : t.Consistent) (receipt : Nat) : (t.xack receipt).Consistent where
  pendingIds := consistent.pendingIds.sublist (List.filter_sublist.map _)
  usedPending entry member := consistent.usedPending entry (mem_xack.mp member).1
  unreadIds := consistent.unreadIds
  usedUnread := consistent.usedUnread
  apart entry member other pending := consistent.apart entry member other (mem_xack.mp pending).1
  old publication member := consistent.old publication
    ((List.filter_sublist.map _).append_left _ |>.subset member)

/-- A new entry of a publication that is known by then. -/
theorem xadd (consistent : t.Consistent) {publications : Nat} (published : List String)
    (grows : t.publications ≤ publications) (known : message.publication < publications) :
    { t.xadd message with published := published, publications := publications }.Consistent := by
  constructor
  case pendingIds => exact consistent.pendingIds
  case usedPending =>
    intro entry member
    exact Nat.lt_succ_of_lt (consistent.usedPending entry member)
  case unreadIds =>
    simp only [RedisStreamTransport.xadd, List.map_append, List.map_cons, List.map_nil]
    refine List.nodup_append.mpr ⟨consistent.unreadIds, List.nodup_singleton _, ?_⟩
    intro id before new last same
    obtain ⟨entry, member, rfl⟩ := List.mem_map.mp before
    have used := consistent.usedUnread entry member
    rw [List.mem_singleton.mp last] at same
    omega
  case usedUnread =>
    intro entry member
    rcases List.mem_append.mp member with before | last
    · exact Nat.lt_succ_of_lt (consistent.usedUnread entry before)
    · rw [List.mem_singleton.mp last]
      exact Nat.lt_succ_self _
  case apart =>
    intro entry member other pending
    rcases List.mem_append.mp member with before | last
    · exact consistent.apart entry before other pending
    · rw [List.mem_singleton.mp last]
      exact (consistent.usedPending other pending).ne'
  case old =>
    intro publication member
    rcases List.mem_cons.mp (live_xadd.subset member) with rfl | before
    · exact known
    · exact (consistent.old publication before).trans_le grows

theorem publish (consistent : t.Consistent) (key : String) (attempt : Nat) :
    (t.publish key attempt).Consistent := by
  unfold RedisStreamTransport.publish
  split
  · exact consistent
  · exact consistent.xadd _ (Nat.le_succ _) (Nat.lt_succ_self _)

theorem receive (consistent : t.Consistent) (taken : t.receive consumer = some (d, u)) :
    u.Consistent ∧ ∃ rest, t.unread = ⟨d.receipt, d.message⟩ :: rest ∧
      d.deliveryCount = d.message.attempt ∧
      u = { t with
        unread := rest, pending := t.pending ++ [⟨d.receipt, d.message, 1, t.now⟩] } := by
  unfold RedisStreamTransport.receive at taken
  split at taken
  · contradiction
  · rename_i entry rest waiting
    simp only [Option.some.injEq, Prod.mk.injEq] at taken
    obtain ⟨rfl, rfl⟩ := taken
    refine ⟨?_, rest, waiting, rfl, rfl⟩
    have head : entry ∈ t.unread := waiting ▸ List.mem_cons_self
    have tail {other} (member : other ∈ rest) : other ∈ t.unread :=
      waiting ▸ List.mem_cons_of_mem _ member
    have unreadIds := consistent.unreadIds
    rw [waiting, List.map_cons] at unreadIds
    obtain ⟨fresh, others⟩ := List.nodup_cons.mp unreadIds
    constructor
    case pendingIds =>
      rw [List.map_append]
      refine List.nodup_append.mpr ⟨consistent.pendingIds, List.nodup_singleton _, ?_⟩
      intro id before new last same
      obtain ⟨other, pending, rfl⟩ := List.mem_map.mp before
      rw [List.mem_singleton.mp last] at same
      exact consistent.apart entry head other pending same.symm
    case usedPending =>
      intro other pending
      rcases List.mem_append.mp pending with before | last
      · exact consistent.usedPending other before
      · rw [List.mem_singleton.mp last]
        exact consistent.usedUnread entry head
    case unreadIds => exact others
    case usedUnread => exact fun other member => consistent.usedUnread other (tail member)
    case apart =>
      intro other member claimed pending same
      rcases List.mem_append.mp pending with before | last
      · exact consistent.apart other (tail member) claimed before same
      · rw [List.mem_singleton.mp last] at same
        exact fresh (List.mem_map.mpr ⟨other, member, same⟩)
    case old =>
      intro publication member
      refine consistent.old publication ?_
      simp only [live, List.map_append, List.map_cons, List.map_nil, List.mem_append, waiting,
        List.mem_cons] at member ⊢
      tauto

/-- Reading an entry moves its copy. -/
theorem live_receive (consistent : t.Consistent) (taken : t.receive consumer = some (d, u)) :
    u.live.Perm t.live := by
  obtain ⟨-, rest, waiting, -, rfl⟩ := consistent.receive taken
  simp only [live, waiting, List.map_append, List.map_cons, List.map_nil, ← List.append_assoc]
  exact List.perm_append_singleton ..

/-- A claim counts one more delivery of its entry and changes nothing else. -/
theorem xautoclaim (consistent : t.Consistent) {minIdleMs : Nat}
    (claimed : t.xautoclaim receipt minIdleMs = some (message, u)) :
    u.Consistent ∧ u.live = t.live ∧ u.unread = t.unread ∧ u.entries = t.entries ∧
      u.publications = t.publications ∧ ∃ entry ∈ t.pending, entry.id = receipt ∧
      entry.message = message ∧ ∀ other ∈ u.pending,
        (other.id = receipt ∧ other.message = message ∧
          other.timesDelivered = entry.timesDelivered + 1) ∨
        (other ∈ t.pending ∧ other.id ≠ receipt) := by
  simp only [RedisStreamTransport.xautoclaim, Option.map_eq_some_iff, Prod.mk.injEq] at claimed
  obtain ⟨entry, found, rfl, rfl⟩ := claimed
  have pending := List.mem_of_find?_eq_some found
  have matched : entry.id = receipt := by
    have fits := List.find?_some found
    simp only [decide_eq_true_eq] at fits
    exact fits.1
  let renew (other : PendingEntry) : PendingEntry :=
    if other.id = receipt then
      { other with timesDelivered := other.timesDelivered + 1, deliveredAt := t.now }
    else other
  have id (other : PendingEntry) : (renew other).id = other.id := by
    by_cases same : other.id = receipt <;> simp [renew, same]
  have message (other : PendingEntry) : (renew other).message = other.message := by
    by_cases same : other.id = receipt <;> simp [renew, same]
  have liveSame : { t with pending := t.pending.map renew }.live = t.live := by
    simp only [live, List.map_map]
    congr 1
    exact List.map_congr_left fun other _ => congrArg AgentMessage.publication (message other)
  refine ⟨?_, liveSame, rfl, rfl, rfl, entry, pending, matched, rfl, ?_⟩
  · constructor
    case pendingIds =>
      show ((t.pending.map renew).map PendingEntry.id).Nodup
      rw [List.map_map]
      exact (List.map_congr_left fun other _ => id other) ▸ consistent.pendingIds
    case usedPending =>
      intro other member
      obtain ⟨old, was, rfl⟩ := List.mem_map.mp member
      exact (id old).symm ▸ consistent.usedPending old was
    case unreadIds => exact consistent.unreadIds
    case usedUnread => exact consistent.usedUnread
    case apart =>
      intro waiting unread other member
      obtain ⟨old, was, rfl⟩ := List.mem_map.mp member
      exact (id old).symm ▸ consistent.apart waiting unread old was
    case old =>
      intro publication member
      exact consistent.old publication (liveSame ▸ member)
  · intro other member
    obtain ⟨old, was, rfl⟩ := List.mem_map.mp member
    by_cases same : old.id = receipt
    · have twin := consistent.same_id was pending (same.trans matched.symm)
      subst twin
      exact .inl ⟨(id old).trans same, message old, by simp [same]⟩
    · rw [if_neg same]
      exact .inr ⟨was, same⟩

end Consistent

theorem Consistent.single_publish (consistent : t.Consistent) (single : t.live.Nodup) (key : String)
    (attempt : Nat) : (t.publish key attempt).live.Nodup := by
  unfold RedisStreamTransport.publish
  split
  · exact single
  · have added : (t.xadd ⟨t.publications, key, attempt⟩).live.Perm (t.publications :: t.live) :=
      live_xadd
    refine added.nodup_iff.mpr (List.nodup_cons.mpr ⟨fun member => ?_, single⟩)
    exact (consistent.old _ member).ne rfl

theorem publications_publish (t : RedisStreamTransport) (key : String) (attempt : Nat) :
    t.publications ≤ (t.publish key attempt).publications := by
  unfold RedisStreamTransport.publish
  split
  · exact le_rfl
  · exact Nat.le_succ _

theorem pending_publish (key : String) (attempt : Nat) :
    (t.publish key attempt).pending = t.pending := by
  unfold RedisStreamTransport.publish
  split <;> rfl

theorem mem_unread_publish {key : String} {attempt : Nat} {entry : StreamEntry}
    (member : entry ∈ (t.publish key attempt).unread) : entry ∈ t.unread ∨
      (entry.message.publication = t.publications ∧ entry.message.attempt = attempt) := by
  unfold RedisStreamTransport.publish at member
  split at member
  · exact .inl member
  · rcases List.mem_append.mp member with before | last
    · exact .inl before
    · exact .inr (List.mem_singleton.mp last ▸ ⟨rfl, rfl⟩)

/-- What a consumer that holds a receipt knows: the receipt was read, and an entry that is still
pending under it holds the same message. -/
def Delivered (t : RedisStreamTransport) (receipt : Nat) (message : AgentMessage) : Prop :=
  receipt < t.entries ∧ (∀ entry ∈ t.unread, entry.id ≠ receipt) ∧
    ∀ entry ∈ t.pending, entry.id = receipt → entry.message = message

namespace Delivered

/-- New entries take new ids, and pending entries keep their messages. -/
theorem moved (known : t.Delivered receipt message) (entries : t.entries ≤ u.entries)
    (unread : ∀ entry ∈ u.unread, entry ∈ t.unread ∨ entry.id = t.entries)
    (pending : ∀ entry ∈ u.pending, ∃ old ∈ t.pending,
      old.id = entry.id ∧ old.message = entry.message) :
    u.Delivered receipt message := by
  obtain ⟨used, read, same⟩ := known
  refine ⟨used.trans_le entries, fun entry member => ?_, fun entry member matched => ?_⟩
  · rcases unread entry member with before | new
    · exact read entry before
    · omega
  · obtain ⟨old, was, id, kept⟩ := pending entry member
    exact kept ▸ same old was (id.trans matched)

theorem xadd (known : t.Delivered receipt message) (new : AgentMessage) :
    (t.xadd new).Delivered receipt message := by
  refine known.moved (Nat.le_succ _) (fun entry member => ?_) fun entry member =>
    ⟨entry, member, rfl, rfl⟩
  rcases List.mem_append.mp member with before | last
  · exact .inl before
  · exact .inr (List.mem_singleton.mp last ▸ rfl)

theorem publish (known : t.Delivered receipt message) (key : String) (attempt : Nat) :
    (t.publish key attempt).Delivered receipt message := by
  unfold RedisStreamTransport.publish
  split
  · exact known
  · exact known.xadd _

theorem xack (known : t.Delivered receipt message) (other : Nat) :
    (t.xack other).Delivered receipt message :=
  known.moved le_rfl (fun _ member => .inl member) fun entry member =>
    ⟨entry, (mem_xack.mp member).1, rfl, rfl⟩

theorem retry (known : t.Delivered receipt message) (d : AgentMessageDelivery) (errorCode : String)
    (maxAttempts : Nat) : (t.retry d errorCode maxAttempts).2.Delivered receipt message := by
  unfold RedisStreamTransport.retry
  dsimp only
  split
  · exact known.xack d.receipt
  · exact (known.xack d.receipt).xadd d.message.next

theorem receive (known : t.Delivered receipt message) (consistent : t.Consistent)
    (taken : t.receive consumer = some (d, u)) : u.Delivered receipt message := by
  obtain ⟨-, rest, waiting, -, rfl⟩ := consistent.receive taken
  obtain ⟨used, read, same⟩ := known
  have head := read ⟨d.receipt, d.message⟩ (waiting ▸ List.mem_cons_self)
  refine ⟨used, fun entry member => read entry (waiting ▸ List.mem_cons_of_mem _ member),
    fun entry member matched => ?_⟩
  rcases List.mem_append.mp member with before | last
  · exact same entry before matched
  · rw [List.mem_singleton.mp last] at matched
    exact absurd matched head

theorem received (consistent : t.Consistent) (taken : t.receive consumer = some (d, u)) :
    u.Delivered d.receipt d.message := by
  obtain ⟨-, rest, waiting, -, rfl⟩ := consistent.receive taken
  have head : ⟨d.receipt, d.message⟩ ∈ t.unread := waiting ▸ List.mem_cons_self
  have unreadIds := consistent.unreadIds
  rw [waiting, List.map_cons] at unreadIds
  refine ⟨consistent.usedUnread _ head, fun entry member same => ?_, fun entry member matched => ?_⟩
  · exact (List.nodup_cons.mp unreadIds).1 (List.mem_map.mpr ⟨entry, member, same⟩)
  · rcases List.mem_append.mp member with before | last
    · exact absurd matched.symm (consistent.apart _ head entry before)
    · rw [List.mem_singleton.mp last]

theorem xautoclaim (known : t.Delivered receipt message) (consistent : t.Consistent)
    {other minIdleMs : Nat} {found : AgentMessage}
    (claimed : t.xautoclaim other minIdleMs = some (found, u)) : u.Delivered receipt message := by
  obtain ⟨-, -, unread, entries, -, entry, pending, id, same, kept⟩ := consistent.xautoclaim claimed
  refine known.moved entries.ge (fun _ member => .inl (unread ▸ member)) fun renewed member => ?_
  rcases kept renewed member with ⟨sameId, sameMessage, -⟩ | ⟨was, -⟩
  · exact ⟨entry, pending, id.trans sameId.symm, same.trans sameMessage.symm⟩
  · exact ⟨renewed, was, rfl, rfl⟩

theorem claimed (consistent : t.Consistent) {minIdleMs : Nat}
    (claimed : t.xautoclaim receipt minIdleMs = some (message, u)) :
    u.Delivered receipt message := by
  obtain ⟨-, -, unread, entries, -, entry, pending, rfl, rfl, kept⟩ := consistent.xautoclaim claimed
  refine ⟨entries ▸ consistent.usedPending entry pending, fun waiting member => ?_,
    fun renewed member matched => ?_⟩
  · exact consistent.apart waiting (unread ▸ member) entry pending
  · rcases kept renewed member with ⟨-, same, -⟩ | ⟨-, apart⟩
    · exact same
    · exact absurd matched apart

end Delivered

/-- A retry of a pending entry below the limit moves its copy. -/
theorem live_requeue (consistent : t.Consistent) (known : t.Delivered d.receipt d.message)
    (pending : t.isPending d.receipt = true) (below : ¬ d.exhausted maxAttempts = true)
    (errorCode : String) : (t.retry d errorCode maxAttempts).2.live.Perm t.live := by
  obtain ⟨entry, member, matched⟩ := isPending_iff.mp pending
  have message := known.2.2 entry member matched
  have removed := consistent.live_xack member
  rw [matched, message] at removed
  simp only [RedisStreamTransport.retry, if_neg below]
  exact live_xadd.trans removed.symm

/-- A retry of any other entry below the limit adds a copy. -/
theorem live_stale (stale : t.isPending d.receipt = false) (below : ¬ d.exhausted maxAttempts = true)
    (errorCode : String) :
    (t.retry d errorCode maxAttempts).2.live.Perm (d.message.publication :: t.live) := by
  have absent : ∀ entry ∈ t.pending, entry.id ≠ d.receipt := by
    intro entry member same
    rw [isPending_iff.mpr ⟨entry, member, same⟩] at stale
    contradiction
  simp only [RedisStreamTransport.retry, if_neg below, live_xack_absent absent]
  exact live_xadd

/-- A retry at the limit adds no copy. -/
theorem live_buried (exhausted : d.exhausted maxAttempts = true) (errorCode : String) :
    (t.retry d errorCode maxAttempts).2.live.Sublist t.live := by
  simp only [RedisStreamTransport.retry, if_pos exhausted]
  exact (List.filter_sublist.map _).append_left _

theorem Consistent.retry (consistent : t.Consistent) (known : d.message.publication < t.publications)
    (errorCode : String) (maxAttempts : Nat) :
    (t.retry d errorCode maxAttempts).2.Consistent := by
  unfold RedisStreamTransport.retry
  dsimp only
  split
  · exact { consistent.xack d.receipt with }
  · exact (consistent.xack d.receipt).xadd _ le_rfl known

theorem publications_retry (t : RedisStreamTransport) (d : AgentMessageDelivery)
    (errorCode : String) (maxAttempts : Nat) :
    (t.retry d errorCode maxAttempts).2.publications = t.publications := by
  unfold RedisStreamTransport.retry
  dsimp only
  split <;> rfl

theorem mem_pending_retry {errorCode : String} {entry : PendingEntry}
    (member : entry ∈ (t.retry d errorCode maxAttempts).2.pending) : entry ∈ t.pending := by
  unfold RedisStreamTransport.retry at member
  dsimp only at member
  split at member <;> exact (mem_xack.mp member).1

theorem mem_unread_retry {errorCode : String} {entry : StreamEntry}
    (member : entry ∈ (t.retry d errorCode maxAttempts).2.unread) : entry ∈ t.unread ∨
      (¬ d.exhausted maxAttempts = true ∧ entry.message = d.message.next) := by
  unfold RedisStreamTransport.retry at member
  dsimp only at member
  split at member
  · exact .inl member
  · rename_i below
    rcases List.mem_append.mp member with before | last
    · exact .inl before
    · exact .inr ⟨below, List.mem_singleton.mp last ▸ rfl⟩

end RedisStreamTransport
end MapGo.Transport
