import MapGo.Messages.Memory

/-! A role's Redis stream of any entries and the turns of its workers. A turn takes one entry, which
it decodes and validates before there is a delivery that could be retried or buried. -/
namespace MapGo.Messages

open Transition

variable {R C : Type}

structure StreamEntry (R : Type) where
  id : Nat
  fields : R

structure PendingEntry (R : Type) where
  id : Nat
  fields : R
  timesDelivered : Nat
  deliveredAt : Nat

structure StreamDelivery (C : Type) where
  message : AgentMessage C
  receipt : Nat
  consumer : String
  deliveryCount : Nat
  reclaimed : Bool := false

structure StreamDeadLetter (C : Type) where
  /-- History: the entry. -/
  receipt : Nat
  message : AgentMessage C
  errorCode : String
  consumer : String
  deliveryCount : Nat

/-- `AgentTaskWorker` with the router and the parser of its transport. -/
structure AgentTaskWorker (R C : Type) where
  router : AgentMessageRouter C
  /-- `_decode_stream_message` -/
  decode : R → Except TransportError (AgentMessage C)
  /-- `{"message": message.model_dump_json()}` -/
  encode : AgentMessage C → R
  maxAttempts : Nat
  reclaimIdleMs : Nat
  attempts : 1 ≤ maxAttempts ∧ maxAttempts ≤ 5
  idle : 1000 ≤ reclaimIdleMs

structure StreamState (R C : Type) where
  now : Nat := 0
  unread : List (StreamEntry R) := []
  /-- The pending entries of the group in the order of their ids. -/
  pending : List (PendingEntry R) := []
  deadLetters : List (StreamDeadLetter C) := []
  entries : Nat := 0
  /-- Handlers that were started, until they end. -/
  handling : List (Option (StreamDelivery C)) := []
  /-- History: the entry of every delivery to a consumer. -/
  delivered : List Nat := []
  /-- History: what turns have raised. -/
  raised : List TransportError := []

namespace StreamState

def xadd (s : StreamState R C) (fields : R) : StreamState R C :=
  { s with unread := s.unread ++ [⟨s.entries, fields⟩], entries := s.entries + 1 }

def xack (s : StreamState R C) (receipt : Nat) : StreamState R C :=
  { s with pending := s.pending.filter fun entry => entry.id ≠ receipt }

/-- One more delivery of a pending entry. -/
def claim (s : StreamState R C) (id : Nat) : StreamState R C :=
  { s with
    pending := s.pending.map fun entry =>
      if entry.id = id then
        { entry with timesDelivered := entry.timesDelivered + 1, deliveredAt := s.now }
      else entry
    delivered := s.delivered ++ [id] }

/-- The first delivery of an unread entry. -/
def read (s : StreamState R C) (entry : StreamEntry R) (rest : List (StreamEntry R)) :
    StreamState R C :=
  { s with
    unread := rest
    pending := s.pending ++ [⟨entry.id, entry.fields, 1, s.now⟩]
    delivered := s.delivered ++ [entry.id] }

end StreamState

namespace AgentTaskWorker
variable (w : AgentTaskWorker R C)

/-- The entry that `XAUTOCLAIM` takes. -/
def stale (s : StreamState R C) : Option (PendingEntry R) :=
  s.pending.find? fun entry => w.reclaimIdleMs ≤ s.now - entry.deliveredAt

/-- A decoded message that the router accepts. -/
def vetted (fields : R) (utc : Int) : Except TransportError (AgentMessage C) := do
  let message ← w.decode fields
  match w.router.validate message utc with
  | .error error => .error (.protocol error)
  | .ok _ => return message

/-- `retry` of the transport. -/
def retry (s : StreamState R C) (d : StreamDelivery C) (errorCode : String) : StreamState R C :=
  let s := s.xack d.receipt
  if w.maxAttempts ≤ max d.message.attempt d.deliveryCount then
    { s with deadLetters := s.deadLetters ++ [
      { receipt := d.receipt
        message := d.message
        errorCode := String.ofList (errorCode.toList.take 120)
        consumer := String.ofList (d.consumer.toList.take 120)
        deliveryCount := d.deliveryCount }] }
  else s.xadd (w.encode { d.message with attempt := d.message.attempt + 1 })

/-- A delivery over the limit is buried, any other is handled. -/
def accept (s : StreamState R C) (d : StreamDelivery C) : StreamState R C :=
  if w.maxAttempts < d.deliveryCount then w.retry s d "DELIVERY_LIMIT_EXCEEDED"
  else { s with handling := s.handling ++ [some d] }

def raise (s : StreamState R C) (error : TransportError) : StreamState R C :=
  { s with raised := s.raised ++ [error] }

/-- `run_once` up to its handler. The transport validates at one instant and the bus, for an entry
that was not reclaimed, again at a later one. -/
def turn (s : StreamState R C) (consumer : String) (utc later : Int) : StreamState R C :=
  match w.stale s with
  | some entry =>
      let s := s.claim entry.id
      match w.vetted entry.fields utc with
      | .error error => raise s error
      | .ok message => w.accept s
          { message := message
            receipt := entry.id
            consumer := consumer
            deliveryCount := entry.timesDelivered + 1
            reclaimed := true }
  | none =>
      match s.unread with
      | [] => s
      | entry :: rest =>
          let s := s.read entry rest
          match w.vetted entry.fields utc with
          | .error error => raise s error
          | .ok message => match w.router.validate message later with
            | .error error => raise s (.protocol error)
            | .ok _ => w.accept s
                { message := message
                  receipt := entry.id
                  consumer := consumer
                  deliveryCount := message.attempt }

end AgentTaskWorker

/-- Anything may be added to the stream; handlers end with an acknowledgement, by an exception or
with the worker. -/
inductive StreamAction (R : Type) where
  | add (fields : R)
  | wait (ms : Nat)
  | turn (consumer : String) (utc later : Int)
  | succeed (handler : Nat)
  | fail (handler : Nat) (errorCode : String)
  | crash (handler : Nat)

/-- The end of a handler, if it runs. -/
def StreamState.finish (s : StreamState R C) (handler : Nat)
    (last : StreamState R C → StreamDelivery C → StreamState R C) : Option (StreamState R C) :=
  (s.handling[handler]?).join.map fun d =>
    last { s with handling := s.handling.set handler none } d

def streamMachine (w : AgentTaskWorker R C) : Machine (StreamState R C) (StreamAction R) where
  initial s := s = {}
  step s
    | .add fields => some (s.xadd fields)
    | .wait ms => some { s with now := s.now + ms }
    | .turn consumer utc later => some (w.turn s consumer utc later)
    | .succeed handler => s.finish handler fun s d => s.xack d.receipt
    | .fail handler errorCode => s.finish handler fun s d => w.retry s d errorCode
    | .crash handler => s.finish handler fun s _ => s

namespace StreamState

/-- No turn has raised, and every entry delivered too often is acknowledged and a dead letter. -/
def Contained (w : AgentTaskWorker R C) (s : StreamState R C) : Prop :=
  s.raised = [] ∧ ∀ id, w.maxAttempts < s.delivered.count id →
    (∀ entry ∈ s.pending, entry.id ≠ id) ∧ id ∈ s.deadLetters.map StreamDeadLetter.receipt

/-- The entry that a turn takes decodes and passes the router. -/
def wholesome (w : AgentTaskWorker R C) (s : StreamState R C) : StreamAction R → Bool
  | .turn _ utc later =>
      match w.stale s with
      | some entry => (w.vetted entry.fields utc).isOk
      | none => s.unread.head?.all fun entry =>
          (w.vetted entry.fields utc).isOk && (w.vetted entry.fields later).isOk
  | _ => true

variable {w : AgentTaskWorker R C} {s t : StreamState R C} {d : StreamDelivery C}

/-- Entry ids are used once, and a pending entry counts its deliveries. -/
structure Sequenced (s : StreamState R C) : Prop where
  pendingIds : (s.pending.map PendingEntry.id).Nodup
  unreadIds : (s.unread.map StreamEntry.id).Nodup
  unread : ∀ entry ∈ s.unread, entry.id < s.entries ∧ entry.id ∉ s.delivered
  used : ∀ id ∈ s.delivered, id < s.entries
  counted : ∀ entry ∈ s.pending,
    1 ≤ entry.timesDelivered ∧ s.delivered.count entry.id = entry.timesDelivered

/-- An entry that was delivered too often is acknowledged and a dead letter. -/
def Buried (w : AgentTaskWorker R C) (s : StreamState R C) (id : Nat) : Prop :=
  w.maxAttempts < s.delivered.count id →
    (∀ entry ∈ s.pending, entry.id ≠ id) ∧ id ∈ s.deadLetters.map StreamDeadLetter.receipt

namespace Sequenced

theorem xadd (sequenced : s.Sequenced) (fields : R) : (s.xadd fields).Sequenced where
  pendingIds := sequenced.pendingIds
  unreadIds := by
    rw [StreamState.xadd, List.map_append]
    refine List.nodup_append.mpr ⟨sequenced.unreadIds, List.nodup_singleton _, ?_⟩
    intro id before new last same
    obtain ⟨entry, member, rfl⟩ := List.mem_map.mp before
    have below := (sequenced.unread entry member).1
    have latest : new = s.entries := List.mem_singleton.mp last
    omega
  unread entry member := by
    rcases List.mem_append.mp member with before | last
    · obtain ⟨below, fresh⟩ := sequenced.unread entry before
      exact ⟨Nat.lt_succ_of_lt below, fresh⟩
    · rw [List.mem_singleton.mp last]
      exact ⟨Nat.lt_succ_self _, fun delivered => lt_irrefl _ (sequenced.used _ delivered)⟩
  used id member := Nat.lt_succ_of_lt (sequenced.used id member)
  counted := sequenced.counted

theorem xack (sequenced : s.Sequenced) (receipt : Nat) : (s.xack receipt).Sequenced where
  pendingIds := sequenced.pendingIds.sublist (List.filter_sublist.map _)
  unreadIds := sequenced.unreadIds
  unread := sequenced.unread
  used := sequenced.used
  counted entry member := sequenced.counted entry (List.mem_filter.mp member).1

theorem claim (sequenced : s.Sequenced) {entry : PendingEntry R} (pending : entry ∈ s.pending) :
    (s.claim entry.id).Sequenced := by
  have delivered : entry.id ∈ s.delivered := by
    have counted := sequenced.counted entry pending
    exact List.count_pos_iff.mp (by omega)
  constructor
  case pendingIds =>
    have same : (s.claim entry.id).pending.map PendingEntry.id = s.pending.map PendingEntry.id := by
      rw [StreamState.claim, List.map_map]
      refine List.map_congr_left fun other _ => ?_
      by_cases matched : other.id = entry.id <;> simp [matched]
    exact same ▸ sequenced.pendingIds
  case unreadIds => exact sequenced.unreadIds
  case unread =>
    intro other member
    obtain ⟨below, fresh⟩ := sequenced.unread other member
    refine ⟨below, fun again => ?_⟩
    rcases List.mem_append.mp again with before | last
    · exact fresh before
    · exact fresh (List.mem_singleton.mp last ▸ delivered)
  case used =>
    intro id member
    rcases List.mem_append.mp member with before | last
    · exact sequenced.used id before
    · rw [List.mem_singleton.mp last]
      exact sequenced.used _ delivered
  case counted =>
    intro other member
    obtain ⟨old, was, rfl⟩ := List.mem_map.mp member
    obtain ⟨positive, counted⟩ := sequenced.counted old was
    by_cases matched : old.id = entry.id
    · simp only [matched, if_true, StreamState.claim, List.count_append, List.count_singleton,
        BEq.rfl]
      rw [← matched, counted]
      omega
    · have other : entry.id ≠ old.id := fun same => matched same.symm
      simp [matched, StreamState.claim, counted, positive, other]

theorem read (sequenced : s.Sequenced) {entry : StreamEntry R} {rest : List (StreamEntry R)}
    (waiting : s.unread = entry :: rest) : (s.read entry rest).Sequenced := by
  have head := sequenced.unread entry (waiting ▸ List.mem_cons_self)
  have tail {other : StreamEntry R} (member : other ∈ rest) : other ∈ s.unread :=
    waiting ▸ List.mem_cons_of_mem _ member
  have ids := sequenced.unreadIds
  rw [waiting, List.map_cons] at ids
  obtain ⟨fresh, others⟩ := List.nodup_cons.mp ids
  have known (id : Nat) (member : id ∈ s.pending.map PendingEntry.id) : id ∈ s.delivered := by
    obtain ⟨other, pending, rfl⟩ := List.mem_map.mp member
    have counted := sequenced.counted other pending
    exact List.count_pos_iff.mp (by omega)
  constructor
  case pendingIds =>
    rw [StreamState.read, List.map_append]
    refine List.nodup_append.mpr ⟨sequenced.pendingIds, List.nodup_singleton _, ?_⟩
    intro id before new last same
    have again : id = entry.id := same.trans (List.mem_singleton.mp last)
    exact head.2 (again ▸ known id before)
  case unreadIds => exact others
  case unread =>
    intro other member
    obtain ⟨below, unseen⟩ := sequenced.unread other (tail member)
    refine ⟨below, fun delivered => ?_⟩
    rcases List.mem_append.mp delivered with before | last
    · exact unseen before
    · exact fresh (List.mem_map.mpr ⟨other, member, List.mem_singleton.mp last⟩)
  case used =>
    intro id member
    rcases List.mem_append.mp member with before | last
    · exact sequenced.used id before
    · exact List.mem_singleton.mp last ▸ head.1
  case counted =>
    intro other member
    rcases List.mem_append.mp member with before | last
    · obtain ⟨positive, counted⟩ := sequenced.counted other before
      have apart : entry.id ≠ other.id := by
        intro same
        exact head.2 (same ▸ known other.id (List.mem_map_of_mem before))
      simp [StreamState.read, counted, positive, apart]
    · rw [List.mem_singleton.mp last]
      simp [StreamState.read, List.count_eq_zero_of_not_mem head.2]

theorem retry (sequenced : s.Sequenced) (d : StreamDelivery C) (errorCode : String) :
    (w.retry s d errorCode).Sequenced := by
  have acknowledged := sequenced.xack d.receipt
  unfold AgentTaskWorker.retry
  dsimp only
  split
  · exact { acknowledged with }
  · exact acknowledged.xadd _

theorem accept (sequenced : s.Sequenced) (d : StreamDelivery C) : (w.accept s d).Sequenced := by
  unfold AgentTaskWorker.accept
  split
  · exact sequenced.retry d _
  · exact { sequenced with }

theorem turn (sequenced : s.Sequenced) (consumer : String) (utc later : Int) :
    (w.turn s consumer utc later).Sequenced := by
  unfold AgentTaskWorker.turn
  split
  · rename_i entry found
    have claimed := sequenced.claim (List.mem_of_find?_eq_some found)
    dsimp only
    split
    · exact { claimed with }
    · exact claimed.accept _
  · split
    · exact sequenced
    · rename_i entry rest waiting
      have delivered := sequenced.read waiting
      dsimp only
      split
      · exact { delivered with }
      · split
        · exact { delivered with }
        · exact delivered.accept _

theorem step (sequenced : s.Sequenced) {action : StreamAction R}
    (stepped : (streamMachine w).step s action = some t) : t.Sequenced := by
  cases action with
  | add fields =>
      cases stepped
      exact sequenced.xadd fields
  | wait ms =>
      cases stepped
      exact { sequenced with }
  | turn consumer utc later =>
      cases stepped
      exact sequenced.turn consumer utc later
  | succeed handler =>
      obtain ⟨d, -, rfl⟩ := Option.map_eq_some_iff.mp stepped
      let taken := { s with handling := s.handling.set handler none }
      have kept : taken.Sequenced := { sequenced with }
      exact kept.xack d.receipt
  | fail handler errorCode =>
      obtain ⟨d, -, rfl⟩ := Option.map_eq_some_iff.mp stepped
      let taken := { s with handling := s.handling.set handler none }
      have kept : taken.Sequenced := { sequenced with }
      exact kept.retry d errorCode
  | crash handler =>
      obtain ⟨d, -, rfl⟩ := Option.map_eq_some_iff.mp stepped
      exact { sequenced with }

end Sequenced

namespace Buried
variable {id : Nat}

/-- What no longer counts a delivery and only acknowledges keeps an entry buried. -/
theorem mono (buried : s.Buried w id) (delivered : t.delivered = s.delivered)
    (pending : t.pending ⊆ s.pending) (dead : s.deadLetters ⊆ t.deadLetters) : t.Buried w id := by
  intro exceeded
  rw [delivered] at exceeded
  obtain ⟨acknowledged, letter⟩ := buried exceeded
  exact ⟨fun entry member => acknowledged entry (pending member),
    List.map_subset StreamDeadLetter.receipt dead letter⟩

theorem retry (buried : s.Buried w id) (d : StreamDelivery C) (errorCode : String) :
    (w.retry s d errorCode).Buried w id := by
  have acknowledged : (s.xack d.receipt).pending ⊆ s.pending :=
    fun _ member => (List.mem_filter.mp member).1
  unfold AgentTaskWorker.retry
  dsimp only
  split
  · exact buried.mono rfl acknowledged (List.subset_append_left _ _)
  · exact buried.mono rfl acknowledged fun _ member => member

theorem accept (buried : s.Buried w id) (d : StreamDelivery C) : (w.accept s d).Buried w id := by
  unfold AgentTaskWorker.accept
  split
  · exact buried.retry d _
  · exact buried.mono rfl (fun _ member => member) fun _ member => member

/-- A delivery that knows how often its entry was delivered is buried when that was too often. -/
theorem of_accept {d : StreamDelivery C}
    (counts : w.maxAttempts < s.delivered.count d.receipt → w.maxAttempts < d.deliveryCount) :
    (w.accept s d).Buried w d.receipt := by
  unfold AgentTaskWorker.accept
  by_cases exceeded : w.maxAttempts < d.deliveryCount
  · rw [if_pos exceeded]
    have limit : w.maxAttempts ≤ max d.message.attempt d.deliveryCount := by omega
    simp only [AgentTaskWorker.retry, if_pos limit]
    intro _
    constructor
    · intro entry member
      simpa using (List.mem_filter.mp member).2
    · exact List.mem_map.mpr ⟨_, List.mem_append_right _ (List.mem_singleton_self _), rfl⟩
  · rw [if_neg exceeded]
    exact fun counted => absurd (counts counted) exceeded

theorem claim (buried : s.Buried w id) {other : Nat} (apart : id ≠ other) :
    (s.claim other).Buried w id := by
  intro exceeded
  have same : (s.claim other).delivered.count id = s.delivered.count id := by
    simp [StreamState.claim, apart.symm]
  obtain ⟨acknowledged, letter⟩ := buried (same ▸ exceeded)
  refine ⟨fun entry member => ?_, letter⟩
  obtain ⟨old, was, rfl⟩ := List.mem_map.mp member
  by_cases matched : old.id = other
  · simpa [matched] using apart.symm
  · simpa [matched] using acknowledged old was

theorem read (buried : s.Buried w id) {entry : StreamEntry R} (rest : List (StreamEntry R))
    (apart : id ≠ entry.id) : (s.read entry rest).Buried w id := by
  intro exceeded
  have same : (s.read entry rest).delivered.count id = s.delivered.count id := by
    simp [StreamState.read, apart.symm]
  obtain ⟨acknowledged, letter⟩ := buried (same ▸ exceeded)
  refine ⟨fun other member => ?_, letter⟩
  rcases List.mem_append.mp member with before | last
  · exact acknowledged other before
  · rw [List.mem_singleton.mp last]
    exact apart.symm

end Buried

theorem accept_raised (s : StreamState R C) (d : StreamDelivery C) :
    (w.accept s d).raised = s.raised := by
  unfold AgentTaskWorker.accept AgentTaskWorker.retry
  dsimp only
  split <;> try split
  all_goals rfl

theorem retry_raised (s : StreamState R C) (d : StreamDelivery C) (errorCode : String) :
    (w.retry s d errorCode).raised = s.raised := by
  unfold AgentTaskWorker.retry
  dsimp only
  split <;> rfl

theorem raise_ne_nil (s : StreamState R C) (error : TransportError) :
    (AgentTaskWorker.raise s error).raised ≠ [] := by
  simp [AgentTaskWorker.raise]

theorem vetted_later {fields : R} {message : AgentMessage C} {utc later : Int}
    (admitted : w.vetted fields utc = .ok message) :
    (w.vetted fields later).isOk = (w.router.validate message later).isOk := by
  cases decoded : w.decode fields with
  | error error => simp [AgentTaskWorker.vetted, decoded, bind, Except.bind] at admitted
  | ok other =>
      have same : other = message := by
        simp only [AgentTaskWorker.vetted, decoded, bind, Except.bind] at admitted
        split at admitted
        · contradiction
        · exact Except.ok.inj admitted
      subst same
      simp only [AgentTaskWorker.vetted, decoded, bind, Except.bind]
      split <;> simp_all [Except.isOk, Except.toBool, pure, Except.pure]

/-- A turn raises exactly when the entry that it takes is not wholesome. -/
theorem turn_raised (consumer : String) (utc later : Int) :
    (w.turn s consumer utc later).raised = [] ↔
      s.raised = [] ∧ s.wholesome w (.turn consumer utc later) = true := by
  unfold AgentTaskWorker.turn wholesome
  cases stale : w.stale s with
  | some entry =>
      cases admitted : w.vetted entry.fields utc with
      | error error => simp [admitted, raise_ne_nil, Except.isOk, Except.toBool]
      | ok message => simp [admitted, accept_raised, Except.isOk, Except.toBool, StreamState.claim]
  | none =>
      cases waiting : s.unread with
      | nil => simp
      | cons entry rest =>
          cases admitted : w.vetted entry.fields utc with
          | error error => simp [admitted, raise_ne_nil, Except.isOk, Except.toBool]
          | ok message =>
              have again : (w.vetted entry.fields later).isOk =
                  (w.router.validate message later).isOk := vetted_later admitted
              cases validated : w.router.validate message later with
              | error error =>
                  simp_all [raise_ne_nil, Except.isOk, Except.toBool]
              | ok done =>
                  simp_all [accept_raised, Except.isOk, Except.toBool, StreamState.read]

theorem turn_buried (sequenced : s.Sequenced) (buried : ∀ id, s.Buried w id) {consumer : String}
    {utc later : Int} (whole : s.wholesome w (.turn consumer utc later) = true) (id : Nat) :
    (w.turn s consumer utc later).Buried w id := by
  unfold AgentTaskWorker.turn
  unfold wholesome at whole
  cases stale : w.stale s with
  | some entry =>
      have pending : entry ∈ s.pending := List.mem_of_find?_eq_some stale
      cases admitted : w.vetted entry.fields utc with
      | error error => simp [stale, admitted, Except.isOk, Except.toBool] at whole
      | ok message =>
          dsimp only
          rw [admitted]
          by_cases same : id = entry.id
          · subst same
            refine Buried.of_accept fun exceeded => ?_
            have counted := (sequenced.counted entry pending).2
            simp only [StreamState.claim, List.count_append, counted, List.count_singleton_self]
              at exceeded
            exact exceeded
          · exact ((buried id).claim same).accept _
  | none =>
      cases waiting : s.unread with
      | nil => exact buried id
      | cons entry rest =>
          have fresh := (sequenced.unread entry (waiting ▸ List.mem_cons_self)).2
          cases admitted : w.vetted entry.fields utc with
          | error error => simp [stale, waiting, admitted, Except.isOk, Except.toBool] at whole
          | ok message =>
              have again : (w.vetted entry.fields later).isOk =
                  (w.router.validate message later).isOk := vetted_later admitted
              cases validated : w.router.validate message later with
              | error error =>
                  have refused : (w.vetted entry.fields later).isOk = false := again.trans
                    (congrArg Except.isOk validated)
                  simp [stale, waiting, refused] at whole
              | ok done =>
                  dsimp only
                  rw [admitted]
                  dsimp only
                  rw [validated]
                  by_cases same : id = entry.id
                  · subst same
                    refine Buried.of_accept fun exceeded => ?_
                    have once : (s.read entry rest).delivered.count entry.id = 1 := by
                      simp [StreamState.read, List.count_eq_zero_of_not_mem fresh]
                    have limit := w.attempts.1
                    dsimp only at exceeded
                    omega
                  · exact ((buried id).read rest same).accept _

theorem Sequenced.initial : ({} : StreamState R C).Sequenced := by
  constructor <;> simp

theorem step_raised {action : StreamAction R} (stepped : (streamMachine w).step s action = some t) :
    t.raised = [] ↔ s.raised = [] ∧ s.wholesome w action = true := by
  cases action with
  | add fields =>
      cases stepped
      exact (and_iff_left rfl).symm
  | wait ms =>
      cases stepped
      exact (and_iff_left rfl).symm
  | turn consumer utc later =>
      cases stepped
      exact turn_raised consumer utc later
  | succeed handler =>
      obtain ⟨d, -, rfl⟩ := Option.map_eq_some_iff.mp stepped
      exact (and_iff_left rfl).symm
  | fail handler errorCode =>
      obtain ⟨d, -, rfl⟩ := Option.map_eq_some_iff.mp stepped
      rw [retry_raised]
      exact (and_iff_left rfl).symm
  | crash handler =>
      obtain ⟨d, -, rfl⟩ := Option.map_eq_some_iff.mp stepped
      exact (and_iff_left rfl).symm

theorem step_buried (sequenced : s.Sequenced) (buried : ∀ id, s.Buried w id)
    {action : StreamAction R} (whole : s.wholesome w action = true)
    (stepped : (streamMachine w).step s action = some t) (id : Nat) : t.Buried w id := by
  cases action with
  | add fields =>
      cases stepped
      exact (buried id).mono rfl (fun _ member => member) fun _ member => member
  | wait ms =>
      cases stepped
      exact (buried id).mono rfl (fun _ member => member) fun _ member => member
  | turn consumer utc later =>
      cases stepped
      exact turn_buried sequenced buried whole id
  | succeed handler =>
      obtain ⟨d, -, rfl⟩ := Option.map_eq_some_iff.mp stepped
      exact (buried id).mono rfl (fun _ member => (List.mem_filter.mp member).1)
        fun _ member => member
  | fail handler errorCode =>
      obtain ⟨d, -, rfl⟩ := Option.map_eq_some_iff.mp stepped
      let taken := { s with handling := s.handling.set handler none }
      have kept : taken.Buried w id := buried id
      exact kept.retry d errorCode
  | crash handler =>
      obtain ⟨d, -, rfl⟩ := Option.map_eq_some_iff.mp stepped
      exact buried id

theorem raised_run {actions : List (StreamAction R)}
    (ran : (streamMachine w).run s actions = some t) :
    t.raised = [] ↔ s.raised = [] ∧ (streamMachine w).along (wholesome w) s actions = true := by
  induction actions generalizing s with
  | nil =>
      cases Option.some.inj ran
      exact (and_iff_left rfl).symm
  | cons action rest ih =>
      obtain ⟨middle, stepped, ran⟩ := Option.bind_eq_some_iff.mp ran
      rw [ih ran, step_raised stepped, Machine.along, stepped, Bool.and_eq_true, and_assoc]

theorem buried_run {actions : List (StreamAction R)} (sequenced : s.Sequenced)
    (buried : ∀ id, s.Buried w id) (ran : (streamMachine w).run s actions = some t)
    (whole : (streamMachine w).along (wholesome w) s actions = true) (id : Nat) :
    t.Buried w id := by
  induction actions generalizing s with
  | nil =>
      cases Option.some.inj ran
      exact buried id
  | cons action rest ih =>
      obtain ⟨middle, stepped, ran⟩ := Option.bind_eq_some_iff.mp ran
      rw [Machine.along, stepped, Bool.and_eq_true] at whole
      exact ih (sequenced.step stepped) (step_buried sequenced buried whole.1 stepped) ran whole.2

end StreamState

/-- A worker whose entries hold a message or cannot be parsed. -/
def plainWorker : AgentTaskWorker (Option (AgentMessage String)) String where
  router := plainRouter
  decode fields := match fields with
    | some message => .ok message
    | none => .error (.value "Redis Stream entry is missing the Agent message")
  encode := some
  maxAttempts := 1
  reclaimIdleMs := 45000
  attempts := by decide
  idle := by decide

/-- A first delivery whose handler is lost and a second one after the idle time. -/
def redelivered (fields : Option (AgentMessage String)) :
    List (StreamAction (Option (AgentMessage String))) :=
  [.add fields, .turn "companion-1" 10 10, .wait 45000, .turn "companion-2" 20 20]

end MapGo.Messages
