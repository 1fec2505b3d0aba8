import MapGo.Transition
import MapGo.Messages.Router

/-! The in-memory transport on all its channels. A run keeps which deliveries were handed out, what
was acknowledged and which dead letters were dropped, so that every publication can be accounted
for. -/
namespace MapGo.Messages

open Transition

variable {C : Type}

abbrev Channel := AgentEndpoint × Option String

def AgentMessage.channel (message : AgentMessage C) : Channel := (message.receiver, message.inbox)

/-- A message, with the publication that it is a copy of for the history. -/
structure Copy (C : Type) where
  publication : Nat
  message : AgentMessage C

def Copy.next (copy : Copy C) : Copy C :=
  { copy with message := { copy.message with attempt := copy.message.attempt + 1 } }

structure AgentMessageDelivery (C : Type) where
  copy : Copy C
  receipt : Nat
  consumer : String
  deliveryCount : Nat
  reclaimed : Bool := false
  pendingIdleMs : Nat := 0

def AgentMessageDelivery.channel (d : AgentMessageDelivery C) : Channel := d.copy.message.channel

structure MemoryClaim (C : Type) where
  delivery : AgentMessageDelivery C
  claimedAt : Nat

structure DeadLetter (C : Type) where
  copy : Copy C
  errorCode : String
  consumer : String
  deliveryCount : Nat

/-- `_dead_letter_payload` -/
def deadLetterPayload (d : AgentMessageDelivery C) (errorCode : String) : DeadLetter C where
  copy := d.copy
  errorCode := String.ofList (errorCode.toList.take 120)
  consumer := String.ofList (d.consumer.toList.take 120)
  deliveryCount := d.deliveryCount

inductive TransportError where
  | protocol (message : AgentProtocolError)
  | runtime (message : String)
  | value (message : String)
  deriving DecidableEq, Repr

/-- Queues, claims and dead letters of all channels, each channel in its order. -/
structure MemoryState (C : Type) where
  /-- `time.monotonic` in milliseconds. -/
  now : Nat := 0
  utc : Int := 0
  queue : List (Copy C) := []
  pending : List (MemoryClaim C) := []
  deadLetters : List (DeadLetter C) := []
  published : List (String × Nat) := []
  publications : Nat := 0
  receipts : Nat := 0
  /-- History: every delivery that was handed out. -/
  deliveries : List (AgentMessageDelivery C) := []
  /-- History: the publications that were acknowledged. -/
  acknowledged : List Nat := []
  /-- History: the publications whose dead letters the bound has dropped. -/
  dropped : List Nat := []

structure InMemoryAgentMessageTransport (C : Type) where
  router : AgentMessageRouter C
  idempotencyTtlSeconds : Nat := 86400
  maxMessagesPerRole : Nat := 10000

namespace InMemoryAgentMessageTransport
variable (t : InMemoryAgentMessageTransport C)

def ttlMs : Nat := max 60 t.idempotencyTtlSeconds * 1000

def capacity : Nat := max 100 t.maxMessagesPerRole

/-- `publish`; true for a new publication, false for a duplicate. -/
def publish (s : MemoryState C) (message : AgentMessage C) :
    Except TransportError Bool × MemoryState C :=
  match t.router.validate message s.utc with
  | .error error => (.error (.protocol error), s)
  | .ok _ =>
      let s := { s with published := s.published.filter fun entry => s.now < entry.2 }
      if message.idempotencyKey ∈ s.published.map Prod.fst then (.ok false, s)
      else if t.capacity ≤ (s.queue.filter fun copy => copy.message.channel = message.channel).length then
        (.error (.runtime "agent_message_queue_capacity_exceeded"), s)
      else
        let kept := s.published.drop (s.published.length + 1 - t.capacity)
        (.ok true, { s with
          published := kept ++ [(message.idempotencyKey, s.now + t.ttlMs)]
          queue := s.queue ++ [⟨s.publications, message⟩]
          publications := s.publications + 1 })

/-- The oldest message of a channel. -/
def front (s : MemoryState C) (channel : Channel) : Option (Copy C) :=
  s.queue.find? fun copy => copy.message.channel = channel

/-- `receive`: the message leaves its queue before it is validated. -/
def receive (s : MemoryState C) (channel : Channel) (consumer : String) :
    Except TransportError (Option (AgentMessageDelivery C)) × MemoryState C :=
  match front s channel with
  | none => (.ok none, s)
  | some copy =>
      let s := { s with queue := s.queue.eraseP fun copy => copy.message.channel = channel }
      match t.router.validate copy.message s.utc with
      | .error error => (.error (.protocol error), s)
      | .ok _ =>
          let delivery : AgentMessageDelivery C :=
            { copy := copy
              receipt := s.receipts
              consumer := consumer
              deliveryCount := copy.message.attempt }
          (.ok (some delivery), { s with
            pending := s.pending ++ [⟨delivery, s.now⟩]
            receipts := s.receipts + 1
            deliveries := s.deliveries ++ [delivery] })

/-- The claim of a delivery. -/
def claims (d : AgentMessageDelivery C) (claim : MemoryClaim C) : Bool :=
  claim.delivery.channel = d.channel && claim.delivery.receipt = d.receipt

def acknowledge (s : MemoryState C) (d : AgentMessageDelivery C) : Bool × MemoryState C :=
  match s.pending.find? (claims d) with
  | none => (false, s)
  | some claim => (true, { s with
      pending := s.pending.eraseP (claims d)
      acknowledged := s.acknowledged ++ [claim.delivery.copy.publication] })

/-- The dead letters with a new one, cut to the bound of its channel. -/
def bury (s : MemoryState C) (letter : DeadLetter C) : MemoryState C :=
  let same (other : DeadLetter C) : Bool := other.copy.message.channel = letter.copy.message.channel
  let letters := s.deadLetters ++ [letter]
  let surplus := (letters.filter same).length - t.capacity
  { s with
    deadLetters := (List.eraseP same)^[surplus] letters
    dropped := s.dropped ++ ((letters.filter same).take surplus).map fun other =>
      other.copy.publication }

/-- `retry`; true for another attempt, false for the dead letters. -/
def retry (s : MemoryState C) (d : AgentMessageDelivery C) (errorCode : String) (maxAttempts : Nat) :
    Except TransportError Bool × MemoryState C :=
  if ¬ (1 ≤ maxAttempts ∧ maxAttempts ≤ 5) then
    (.error (.value "max_attempts must be between one and five"), s)
  else if ¬ s.pending.any (claims d) then (.error (.value "delivery is no longer pending"), s)
  else
    let s := { s with pending := s.pending.eraseP (claims d) }
    if maxAttempts ≤ max d.copy.message.attempt d.deliveryCount then
      (.ok false, t.bury s (deadLetterPayload d errorCode))
    else (.ok true, { s with queue := s.queue ++ [d.copy.next] })

/-- The loop of `reclaim` over the claims, with what is left of `count`. -/
def reclaimed (now : Nat) (channel : Channel) (consumer : String) (minIdleMs : Nat) :
    Nat → List (MemoryClaim C) → List (MemoryClaim C) × List (AgentMessageDelivery C)
  | _, [] => ([], [])
  | left, claim :: rest =>
      if claim.delivery.channel ≠ channel ∨ left = 0 ∨ now - claim.claimedAt < minIdleMs then
        let others := reclaimed now channel consumer minIdleMs left rest
        (claim :: others.1, others.2)
      else
        let delivery : AgentMessageDelivery C :=
          { copy := claim.delivery.copy
            receipt := claim.delivery.receipt
            consumer := consumer
            deliveryCount := claim.delivery.deliveryCount + 1
            reclaimed := true
            pendingIdleMs := now - claim.claimedAt }
        let others := reclaimed now channel consumer minIdleMs (left - 1) rest
        (⟨delivery, now⟩ :: others.1, delivery :: others.2)

def reclaim (s : MemoryState C) (channel : Channel) (consumer : String) (minIdleMs count : Int) :
    List (AgentMessageDelivery C) × MemoryState C :=
  let result := reclaimed s.now channel consumer minIdleMs.toNat count.toNat s.pending
  (result.2, { s with pending := result.1, deliveries := s.deliveries ++ result.2 })

end InMemoryAgentMessageTransport

/-- Operations on any channels. Deliveries are those that were handed out, by their positions; both
clocks go on by themselves. -/
inductive TransportAction (C : Type) where
  | publish (message : AgentMessage C)
  | receive (channel : Channel) (consumer : String)
  | acknowledge (delivery : Nat)
  | retry (delivery : Nat) (errorCode : String) (maxAttempts : Nat)
  | reclaim (channel : Channel) (consumer : String) (minIdleMs count : Int)
  | wait (ms : Nat)
  | clock (utc : Int)

open InMemoryAgentMessageTransport in
def memoryMachine (t : InMemoryAgentMessageTransport C) :
    Machine (MemoryState C) (TransportAction C) where
  initial s := s = {}
  step s
    | .publish message => some (t.publish s message).2
    | .receive channel consumer => some (t.receive s channel consumer).2
    | .acknowledge delivery => (s.deliveries[delivery]?).map fun d => (acknowledge s d).2
    | .retry delivery errorCode maxAttempts =>
        (s.deliveries[delivery]?).map fun d => (t.retry s d errorCode maxAttempts).2
    | .reclaim channel consumer minIdleMs count =>
        some (reclaim s channel consumer minIdleMs count).2
    | .wait ms => some { s with now := s.now + ms }
    | .clock utc => some { s with utc := utc }

namespace MemoryState

/-- Where publications are: waiting, claimed, dead letters (also dropped ones) or acknowledged. -/
def places (s : MemoryState C) : List Nat :=
  s.queue.map Copy.publication ++ (s.pending.map fun claim => claim.delivery.copy.publication) ++
    (s.deadLetters.map fun letter => letter.copy.publication) ++ s.dropped ++ s.acknowledged

/-- Every accepted message is in exactly one place. -/
def Conserved (s : MemoryState C) : Prop := s.places.Perm (List.range s.publications)

/-- A receive does not find an expired message at the front of its channel. -/
def unexpired (s : MemoryState C) : TransportAction C → Bool
  | .receive channel _ =>
      (InMemoryAgentMessageTransport.front s channel).all fun copy => !copy.message.expired s.utc
  | _ => true

end MemoryState

/-- Erasing the first match takes one element out. -/
theorem perm_cons_eraseP {α : Type} {p : α → Bool} {items : List α} {item : α}
    (found : items.find? p = some item) : items.Perm (item :: items.eraseP p) := by
  induction items with
  | nil => contradiction
  | cons head rest ih =>
      by_cases matched : p head = true
      · rw [List.find?_cons_of_pos matched] at found
        cases found
        rw [List.eraseP_cons_of_pos matched]
      · rw [List.find?_cons_of_neg matched] at found
        rw [List.eraseP_cons_of_neg matched]
        exact ((ih found).cons head).trans (.swap ..)

/-- Erasing first matches again and again takes the first of them out. -/
theorem perm_take_iterate_eraseP {α : Type} (p : α → Bool) (n : Nat) (items : List α) :
    items.Perm ((List.eraseP p)^[n] items ++ (items.filter p).take n) := by
  induction n generalizing items with
  | zero => simp
  | succ n ih =>
      rw [Function.iterate_succ_apply]
      cases found : items.find? p with
      | none =>
          have clear : ∀ item ∈ items, ¬ p item = true := by simpa using found
          rw [List.eraseP_of_forall_not clear]
          have none : items.filter p = [] := List.filter_eq_nil_iff.mpr clear
          simpa [none] using ih items
      | some item =>
          have taken := perm_cons_eraseP found
          have filtered : items.filter p = item :: (items.eraseP p).filter p := by
            obtain ⟨matched, before, after, rfl, clear⟩ := List.find?_eq_some_iff_append.mp found
            have absent : before.filter p = [] := by
              refine List.filter_eq_nil_iff.mpr fun other member => ?_
              simpa using clear other member
            rw [List.eraseP_append_right _ fun other member => by simpa using clear other member,
              List.eraseP_cons_of_pos matched, List.filter_append, List.filter_append, absent,
              List.filter_cons_of_pos matched, List.nil_append, List.nil_append]
          rw [filtered, List.take_succ_cons]
          exact taken.trans (((ih (items.eraseP p)).cons item).trans List.perm_middle.symm)

namespace MemoryState
variable {t : InMemoryAgentMessageTransport C} {s u : MemoryState C} {k : Nat} {issued : List (Copy C)}

/-- The copies behind the receipts: claims and deliveries hold the copy of their receipt, and every
copy has passed the checks but that of its time. -/
structure Sound (t : InMemoryAgentMessageTransport C) (issued : List (Copy C)) (s : MemoryState C) :
    Prop where
  length : issued.length = s.receipts
  queued : ∀ copy ∈ s.queue, t.router.wellFormed copy.message
  formed : ∀ copy ∈ issued, t.router.wellFormed copy.message
  claimed : ∀ claim ∈ s.pending, issued[claim.delivery.receipt]? = some claim.delivery.copy
  handed : ∀ d ∈ s.deliveries, issued[d.receipt]? = some d.copy

/-- All publications but some are in one place. -/
def Missing (s : MemoryState C) (k : Nat) : Prop :=
  ∃ lost, lost.length = k ∧ (s.places ++ lost).Perm (List.range s.publications)

theorem Missing.conserved_iff (missing : s.Missing k) : s.Conserved ↔ k = 0 := by
  obtain ⟨lost, rfl, placed⟩ := missing
  constructor
  · intro conserved
    have size := placed.length_eq
    rw [List.length_append, conserved.length_eq] at size
    omega
  · intro none
    rw [List.eq_nil_of_length_eq_zero none, List.append_nil] at placed
    exact placed

/-- The publications stay where they are or change places. -/
theorem Missing.moved (missing : s.Missing k) (places : u.places.Perm s.places)
    (same : u.publications = s.publications) : u.Missing k := by
  obtain ⟨lost, size, placed⟩ := missing
  exact ⟨lost, size, same ▸ (places.append_right lost).trans placed⟩

theorem publish (sound : s.Sound t issued) (missing : s.Missing k) (message : AgentMessage C) :
    (t.publish s message).2.Sound t issued ∧ (t.publish s message).2.Missing k := by
  unfold InMemoryAgentMessageTransport.publish
  split
  · exact ⟨sound, missing⟩
  · rename_i valid
    dsimp only
    split
    · exact ⟨⟨sound.length, sound.queued, sound.formed, sound.claimed, sound.handed⟩, missing⟩
    · split
      · exact ⟨⟨sound.length, sound.queued, sound.formed, sound.claimed, sound.handed⟩, missing⟩
      · refine ⟨⟨sound.length, ?_, sound.formed, sound.claimed, sound.handed⟩, ?_⟩
        · intro copy member
          rcases List.mem_append.mp member with before | last
          · exact sound.queued copy before
          · rw [List.mem_singleton.mp last]
            exact (AgentMessageRouter.validate_ok_iff.mp valid).1
        · obtain ⟨lost, size, placed⟩ := missing
          refine ⟨lost, size, ?_⟩
          rw [List.perm_iff_count] at placed ⊢
          intro p
          have counted := placed p
          simp only [places, List.map_append, List.map_cons, List.map_nil, List.count_append,
            List.range_succ] at counted ⊢
          omega

/-- A receive moves the front of its channel into a claim, or loses it when it has expired. -/
theorem receive (sound : s.Sound t issued) (missing : s.Missing k) (channel : Channel)
    (consumer : String) : (∃ issued, (t.receive s channel consumer).2.Sound t issued) ∧
      (t.receive s channel consumer).2.Missing
        (k + if s.unexpired (.receive channel consumer) then 0 else 1) := by
  have condition : s.unexpired (.receive channel consumer) =
      (InMemoryAgentMessageTransport.front s channel).all
        fun copy => !copy.message.expired s.utc := rfl
  rw [condition]
  unfold InMemoryAgentMessageTransport.receive
  cases found : InMemoryAgentMessageTransport.front s channel with
  | none => exact ⟨⟨issued, sound⟩, missing⟩
  | some copy =>
      have taken := perm_cons_eraseP found
      have formed := sound.queued copy (List.mem_of_find?_eq_some found)
      have queued (other : Copy C)
          (member : other ∈ s.queue.eraseP fun copy => copy.message.channel = channel) :
          t.router.wellFormed other.message := sound.queued other (List.mem_of_mem_eraseP member)
      have counted := List.perm_iff_count.mp (taken.map Copy.publication)
      obtain ⟨lost, size, placed⟩ := missing
      rw [List.perm_iff_count] at placed
      simp only [places, List.map_cons, List.count_append, List.count_cons] at placed counted
      dsimp only
      cases expired : copy.message.expired s.utc with
      | true =>
          have refused : t.router.validate copy.message s.utc ≠ .ok () := by
            intro valid
            have fresh := (AgentMessageRouter.validate_ok_iff.mp valid).2
            exact Bool.false_ne_true (fresh.symm.trans expired)
          cases outcome : t.router.validate copy.message s.utc with
          | ok passed => exact absurd outcome refused
          | error error =>
              refine ⟨⟨issued, sound.length, queued, sound.formed, sound.claimed, sound.handed⟩,
                copy.publication :: lost, by simp [size, expired], ?_⟩
              rw [List.perm_iff_count]
              intro p
              have now := placed p
              have split := counted p
              simp only [places, List.count_append, List.count_cons] at now ⊢
              omega
      | false =>
          have valid := AgentMessageRouter.validate_ok_iff.mpr ⟨formed, expired⟩
          rw [valid]
          refine ⟨⟨issued ++ [copy], ?_, queued, ?_, ?_, ?_⟩, lost, by simp [size, expired], ?_⟩
          · simp [sound.length]
          · intro other member
            rcases List.mem_append.mp member with before | last
            · exact sound.formed other before
            · exact List.mem_singleton.mp last ▸ formed
          · intro claim member
            rcases List.mem_append.mp member with before | last
            · have held := sound.claimed claim before
              rw [List.getElem?_append_left (List.getElem?_eq_some_iff.mp held).1]
              exact held
            · rw [List.mem_singleton.mp last, ← sound.length]
              simp
          · intro d member
            rcases List.mem_append.mp member with before | last
            · have held := sound.handed d before
              rw [List.getElem?_append_left (List.getElem?_eq_some_iff.mp held).1]
              exact held
            · rw [List.mem_singleton.mp last, ← sound.length]
              simp
          · rw [List.perm_iff_count]
            intro p
            have now := placed p
            have split := counted p
            simp only [places, List.map_append, List.map_cons, List.map_nil, List.count_append,
              List.count_cons, List.count_nil] at now ⊢
            omega

/-- The claim that a delivery ends holds the copy of the delivery. -/
theorem claimed_copy (sound : s.Sound t issued) {d : AgentMessageDelivery C}
    (handed : d ∈ s.deliveries) {claim : MemoryClaim C}
    (found : s.pending.find? (InMemoryAgentMessageTransport.claims d) = some claim) :
    claim.delivery.copy = d.copy := by
  have matched := List.find?_some found
  simp only [InMemoryAgentMessageTransport.claims, Bool.and_eq_true, decide_eq_true_eq] at matched
  have held := sound.claimed claim (List.mem_of_find?_eq_some found)
  rw [matched.2, sound.handed d handed] at held
  exact (Option.some.inj held).symm

theorem acknowledge (sound : s.Sound t issued) (missing : s.Missing k)
    (d : AgentMessageDelivery C) :
    (InMemoryAgentMessageTransport.acknowledge s d).2.Sound t issued ∧
      (InMemoryAgentMessageTransport.acknowledge s d).2.Missing k := by
  unfold InMemoryAgentMessageTransport.acknowledge
  split
  · exact ⟨sound, missing⟩
  · rename_i claim found
    refine ⟨⟨sound.length, sound.queued, sound.formed, ?_, sound.handed⟩, missing.moved ?_ rfl⟩
    · exact fun other member => sound.claimed other (List.mem_of_mem_eraseP member)
    · have counted := List.perm_iff_count.mp
        ((perm_cons_eraseP found).map fun claim => claim.delivery.copy.publication)
      rw [List.perm_iff_count]
      intro p
      have split := counted p
      simp only [places, List.map_cons, List.count_append, List.count_cons, List.count_nil] at split ⊢
      omega

/-- Dead letters that the bound drops stay accounted for. -/
theorem places_bury (s : MemoryState C) (letter : DeadLetter C) :
    (t.bury s letter).places.Perm (letter.copy.publication :: s.places) := by
  have cut := perm_take_iterate_eraseP (fun other : DeadLetter C =>
      decide (other.copy.message.channel = letter.copy.message.channel))
    (((s.deadLetters ++ [letter]).filter fun other =>
      decide (other.copy.message.channel = letter.copy.message.channel)).length - t.capacity)
    (s.deadLetters ++ [letter])
  have counted := List.perm_iff_count.mp (cut.map fun other => other.copy.publication)
  rw [List.perm_iff_count]
  intro p
  have split := counted p
  simp only [places, InMemoryAgentMessageTransport.bury, List.map_append, List.map_cons, List.map_nil,
    List.count_append, List.count_cons, List.count_nil] at split ⊢
  omega

theorem retry (sound : s.Sound t issued) (missing : s.Missing k) {d : AgentMessageDelivery C}
    (handed : d ∈ s.deliveries) (errorCode : String) (maxAttempts : Nat) :
    (t.retry s d errorCode maxAttempts).2.Sound t issued ∧
      (t.retry s d errorCode maxAttempts).2.Missing k := by
  unfold InMemoryAgentMessageTransport.retry
  split
  · exact ⟨sound, missing⟩
  · split
    · exact ⟨sound, missing⟩
    · rename_i pending
      obtain ⟨claim, found⟩ : ∃ claim,
          s.pending.find? (InMemoryAgentMessageTransport.claims d) = some claim := by
        refine Option.isSome_iff_exists.mp (List.find?_isSome.mpr ?_)
        simpa using pending
      have copy := claimed_copy sound handed found
      have kept (other : MemoryClaim C)
          (member : other ∈ s.pending.eraseP (InMemoryAgentMessageTransport.claims d)) :
          issued[other.delivery.receipt]? = some other.delivery.copy :=
        sound.claimed other (List.mem_of_mem_eraseP member)
      have counted := List.perm_iff_count.mp
        ((perm_cons_eraseP found).map fun claim => claim.delivery.copy.publication)
      dsimp only
      split
      · refine ⟨⟨sound.length, sound.queued, sound.formed, kept, sound.handed⟩, missing.moved ?_ rfl⟩
        refine (places_bury _ _).trans ?_
        rw [List.perm_iff_count]
        intro p
        have split := counted p
        simp only [places, deadLetterPayload, List.map_cons, List.count_append, List.count_cons, copy]
          at split ⊢
        omega
      · refine ⟨⟨sound.length, ?_, sound.formed, kept, sound.handed⟩, missing.moved ?_ rfl⟩
        · intro other member
          rcases List.mem_append.mp member with before | last
          · exact sound.queued other before
          · rw [List.mem_singleton.mp last]
            exact AgentMessageRouter.wellFormed_attempt
              (sound.formed d.copy (List.mem_of_getElem? (sound.handed d handed))) _
        · rw [List.perm_iff_count]
          intro p
          have split := counted p
          simp only [places, Copy.next, List.map_append, List.map_cons, List.map_nil,
            List.count_append, List.count_cons, List.count_nil, copy] at split ⊢
          omega

/-- Reclaimed claims and the claims that are left hold the copies of their receipts. -/
theorem reclaimed_spec (now : Nat) (channel : Channel) (consumer : String) (minIdleMs : Nat)
    (left : Nat) (claims : List (MemoryClaim C)) (held : ∀ claim ∈ claims,
      issued[claim.delivery.receipt]? = some claim.delivery.copy) :
    let result := InMemoryAgentMessageTransport.reclaimed now channel consumer minIdleMs left claims
    (result.1.map fun claim => claim.delivery.copy.publication) =
        (claims.map fun claim => claim.delivery.copy.publication) ∧
      (∀ claim ∈ result.1, issued[claim.delivery.receipt]? = some claim.delivery.copy) ∧
      ∀ d ∈ result.2, issued[d.receipt]? = some d.copy := by
  induction claims generalizing left with
  | nil => exact ⟨rfl, List.forall_mem_nil _, List.forall_mem_nil _⟩
  | cons claim rest ih =>
      obtain ⟨first, others⟩ := List.forall_mem_cons.mp held
      dsimp only
      unfold InMemoryAgentMessageTransport.reclaimed
      split
      · obtain ⟨places, claimed, handed⟩ := ih left others
        refine ⟨?_, List.forall_mem_cons.mpr ⟨first, claimed⟩, handed⟩
        rw [List.map_cons, List.map_cons, places]
      · obtain ⟨places, claimed, handed⟩ := ih (left - 1) others
        refine ⟨?_, List.forall_mem_cons.mpr ⟨first, claimed⟩, List.forall_mem_cons.mpr ⟨first, handed⟩⟩
        rw [List.map_cons, List.map_cons, places]

theorem reclaim (sound : s.Sound t issued) (missing : s.Missing k) (channel : Channel)
    (consumer : String) (minIdleMs count : Int) :
    (InMemoryAgentMessageTransport.reclaim s channel consumer minIdleMs count).2.Sound t issued ∧
      (InMemoryAgentMessageTransport.reclaim s channel consumer minIdleMs count).2.Missing k := by
  obtain ⟨places, claimed, handed⟩ := reclaimed_spec s.now channel consumer minIdleMs.toNat
    count.toNat s.pending sound.claimed
  refine ⟨⟨sound.length, sound.queued, sound.formed, claimed, ?_⟩, missing.moved ?_ rfl⟩
  · intro d member
    rcases List.mem_append.mp member with before | now
    · exact sound.handed d before
    · exact handed d now
  · simp only [MemoryState.places, InMemoryAgentMessageTransport.reclaim, places]
    exact .refl _

/-- A step keeps the account, and loses a publication exactly when it meets an expired front. -/
theorem step (sound : s.Sound t issued) (missing : s.Missing k) {action : TransportAction C}
    (stepped : (memoryMachine t).step s action = some u) :
    (∃ issued, u.Sound t issued) ∧ u.Missing (k + if s.unexpired action then 0 else 1) := by
  cases action with
  | publish message =>
      cases stepped
      have done := publish sound missing message
      exact ⟨⟨issued, done.1⟩, done.2⟩
  | receive channel consumer =>
      cases stepped
      exact receive sound missing channel consumer
  | acknowledge delivery =>
      obtain ⟨d, -, rfl⟩ := Option.map_eq_some_iff.mp stepped
      have done := acknowledge sound missing d
      exact ⟨⟨issued, done.1⟩, done.2⟩
  | retry delivery errorCode maxAttempts =>
      obtain ⟨d, found, rfl⟩ := Option.map_eq_some_iff.mp stepped
      have done := retry sound missing (List.mem_of_getElem? found) errorCode maxAttempts
      exact ⟨⟨issued, done.1⟩, done.2⟩
  | reclaim channel consumer minIdleMs count =>
      cases stepped
      have done := reclaim sound missing channel consumer minIdleMs count
      exact ⟨⟨issued, done.1⟩, done.2⟩
  | wait ms =>
      cases stepped
      exact ⟨⟨issued, sound.length, sound.queued, sound.formed, sound.claimed, sound.handed⟩, missing⟩
  | clock utc =>
      cases stepped
      exact ⟨⟨issued, sound.length, sound.queued, sound.formed, sound.claimed, sound.handed⟩, missing⟩

theorem conserved_run {actions : List (TransportAction C)} (sound : s.Sound t issued)
    (missing : s.Missing k) (ran : (memoryMachine t).run s actions = some u) :
    u.Conserved ↔ s.Conserved ∧ (memoryMachine t).along MemoryState.unexpired s actions = true := by
  induction actions generalizing s issued k with
  | nil =>
      cases Option.some.inj ran
      exact (and_iff_left rfl).symm
  | cons action rest ih =>
      obtain ⟨middle, stepped, ran⟩ := Option.bind_eq_some_iff.mp ran
      obtain ⟨⟨issued, later⟩, fewer⟩ := step sound missing stepped
      rw [ih later fewer ran, fewer.conserved_iff, missing.conserved_iff, Machine.along, stepped]
      by_cases clear : s.unexpired action = true <;> simp [clear]

end MemoryState

/-- In every run of the in-memory transport the accepted messages are each in exactly one place,
exactly as long as no receive meets a message that has expired in its queue. -/
theorem memory_conserved {t : InMemoryAgentMessageTransport C} {s : MemoryState C}
    {actions : List (TransportAction C)} (ran : (memoryMachine t).run {} actions = some s) :
    s.Conserved ↔ (memoryMachine t).along MemoryState.unexpired {} actions = true := by
  have sound : MemoryState.Sound t [] {} := by
    constructor <;> simp
  have missing : MemoryState.Missing ({} : MemoryState C) 0 := ⟨[], rfl, .refl _⟩
  rw [MemoryState.conserved_run sound missing ran]
  exact and_iff_right (.refl _)

/-- Contents are texts that pass; a hash is the text itself. -/
def plainRouter : AgentMessageRouter String where
  payloadError _ _ _ := none
  bytes content := content.length
  sha256 content := content
  sha256Object members := String.intercalate "," (members.map fun member => member.2.getD "")

def observation (expiresAt : Option Int) : AgentMessage String where
  taskId := "trip-1-state"
  sender := .system
  receiver := .companion
  messageType := .event
  artifactType := "trip_observation"
  content := "moved"
  contentHash := "moved"
  idempotencyKey := "1.0,trip-1-state,system,companion,event,trip_observation,moved,c1,,,"
  correlationId := "c1"
  expiresAt := expiresAt

/-- A message is received after it was published. -/
def observed (expiresAt : Option Int) : List (TransportAction String) :=
  [.publish (observation expiresAt), .clock 10, .receive (.companion, none) "worker-1"]

theorem memory_conserved_retried : ∃ s, (memoryMachine { router := plainRouter }).run {}
    (observed none ++ [.retry 0 "tool_error" 3, .receive (.companion, none) "worker-1",
      .acknowledge 1]) = some s ∧ s.acknowledged = [0] ∧ s.Conserved := by
  have ran : ∃ s, (memoryMachine { router := plainRouter }).run {}
      (observed none ++ [.retry 0 "tool_error" 3, .receive (.companion, none) "worker-1",
        .acknowledge 1]) = some s ∧ s.acknowledged = [0] := by decide +kernel
  obtain ⟨s, ran, acknowledged⟩ := ran
  exact ⟨s, ran, acknowledged, (memory_conserved ran).mpr (by decide +kernel)⟩

/-- A message that expires in its queue is in no place after its receive. -/
theorem expired_message_vanishes : ∃ s,
    (memoryMachine { router := plainRouter }).run {} (observed (some 5)) = some s ∧
      s.publications = 1 ∧ ¬ s.Conserved := by
  have ran : ∃ s, (memoryMachine { router := plainRouter }).run {} (observed (some 5)) = some s ∧
      s.publications = 1 ∧ s.places = [] := by decide +kernel
  obtain ⟨s, ran, published, empty⟩ := ran
  refine ⟨s, ran, published, fun conserved => ?_⟩
  have size := conserved.length_eq
  rw [empty, published] at size
  contradiction

end MapGo.Messages
