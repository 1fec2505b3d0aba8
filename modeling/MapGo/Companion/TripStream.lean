import MapGo.Transition

/-! The snapshot stream of one trip. A publisher takes the next sequence number, stores its snapshot
and announces it, each in one operation of the runtime store; readers poll the snapshot. -/
namespace MapGo.Companion

open Transition

/-- The snapshot `{**payload, "sequence": sequence}`. -/
structure StreamEvent (P : Type) where
  sequence : Nat
  payload : P
  deriving DecidableEq

/-- One call of `publish_trip_stream`. -/
structure Publishing (P : Type) where
  payload : P
  sequence : Option Nat := none
  stored : Bool := false
  /-- It has returned or raised. -/
  ended : Bool := false
  deriving DecidableEq

/-- A browser with `stream_trip_events`; it comes back with the last id that it has seen. -/
structure StreamClient (P : Type) where
  lastSequence : Nat := 0
  shown : Option (StreamEvent P) := none
  deriving DecidableEq

structure TripStream (P : Type) where
  now : Nat := 0
  /-- `trip-sequence` with the end of its window -/
  counter : Option (Nat × Nat) := none
  /-- `trip-stream` with its expiry -/
  snapshot : Option (StreamEvent P × Nat) := none
  calls : List (Publishing P) := []
  clients : List (StreamClient P) := []
  /-- History: the snapshots in the order in which they were stored. -/
  written : List (StreamEvent P) := []
  deriving DecidableEq

inductive StreamAction (P : Type) where
  | wait (seconds : Nat)
  | publish (payload : P)
  /-- `increment`; a store that is full of other counters gives no new one. -/
  | number (call : Nat) (full : Bool)
  /-- `set_json`; a snapshot above the size limit only removes the old one. -/
  | store (call : Nat) (fits : Bool)
  /-- `publish`, and the call returns. -/
  | announce (call : Nat)
  /-- The call raises. -/
  | fail (call : Nat)
  /-- The snapshot makes room for another value. -/
  | evict
  | connect
  | poll (client : Nat)

def tripStreamTtlSeconds : Nat := 86400

def tripSequenceTtlSeconds : Nat := 10 * 365 * 24 * 60 * 60

namespace TripStream
variable {P : Type}

/-- The number that `increment` answers, and the counter after it. -/
def increment (s : TripStream P) (full : Bool) : Nat × Option (Nat × Nat) :=
  match s.counter with
  | none =>
      if full then (2 ^ 63 - 1, none) else (1, some (1, s.now + tripSequenceTtlSeconds))
  | some (value, expires) =>
      if expires ≤ s.now then (1, some (1, s.now + tripSequenceTtlSeconds))
      else (value + 1, some (value + 1, expires))

/-- `get_json` -/
def latest (s : TripStream P) : Option (StreamEvent P) :=
  match s.snapshot with
  | some (event, expires) => if expires ≤ s.now then none else some event
  | none => none

/-- One tick of `generate`. -/
def tick (client : StreamClient P)
    (latest : Option (StreamEvent P)) : StreamClient P :=
  match latest with
  | some event =>
      if client.lastSequence < event.sequence then ⟨event.sequence, some event⟩ else client
  | none => client

def step (s : TripStream P) : StreamAction P → Option (TripStream P)
  | .wait seconds => some { s with now := s.now + seconds }
  | .publish payload => some { s with calls := s.calls ++ [{ payload := payload }] }
  | .number call full => do
      let publishing ← s.calls[call]?
      if publishing.ended ∨ publishing.sequence.isSome then none
      else
        some { s with
          counter := (s.increment full).2
          calls := s.calls.set call { publishing with sequence := some (s.increment full).1 } }
  | .store call fits => do
      let publishing ← s.calls[call]?
      let sequence ← publishing.sequence
      if publishing.ended ∨ publishing.stored then none
      else
        let event : StreamEvent P := ⟨sequence, publishing.payload⟩
        some { s with
          snapshot := if fits then some (event, s.now + tripStreamTtlSeconds) else none
          calls := s.calls.set call { publishing with stored := true }
          written := s.written ++ [event] }
  | .announce call => do
      let publishing ← s.calls[call]?
      if publishing.ended ∨ ¬ publishing.stored then none
      else some { s with calls := s.calls.set call { publishing with ended := true } }
  | .fail call => do
      let publishing ← s.calls[call]?
      if publishing.ended then none
      else some { s with calls := s.calls.set call { publishing with ended := true } }
  | .evict => some { s with snapshot := none }
  | .connect => some { s with clients := s.clients ++ [{}] }
  | .poll client => do
      let reader ← s.clients[client]?
      some { s with clients := s.clients.set client (tick reader s.latest) }

def machine (P : Type) : Machine (TripStream P) (StreamAction P) where
  initial s := s = {}
  step := step

/-- No call with a later number has stored its snapshot before. -/
def InOrder (s : TripStream P) : StreamAction P → Prop
  | .store call _ => ∀ publishing ∈ s.calls[call]?, ∀ sequence ∈ publishing.sequence,
      ∀ other ∈ s.calls, other.stored = true → ∀ earlier ∈ other.sequence, earlier < sequence
  | _ => True

instance (s : TripStream P) : DecidablePred s.InOrder
  | .store call _ => inferInstanceAs (Decidable (∀ publishing ∈ s.calls[call]?,
      ∀ sequence ∈ publishing.sequence, ∀ other ∈ s.calls, other.stored = true →
        ∀ earlier ∈ other.sequence, earlier < sequence))
  | .wait _ | .publish _ | .number _ _ | .announce _ | .fail _ | .evict | .connect | .poll _ =>
      .isTrue trivial

/-- What the stream promises: the sequence of the snapshot only grows, a stored snapshot is the one
with the highest number, and a client that reads it shows it. -/
structure Ordered (s : TripStream P) : Prop where
  grows : s.written.Pairwise fun before after => before.sequence < after.sequence
  newest : ∀ event expires, s.snapshot = some (event, expires) →
    s.written.getLast? = some event ∧
      ∀ publishing ∈ s.calls, publishing.stored = true →
        ∀ sequence, publishing.sequence = some sequence → sequence ≤ event.sequence
  delivered : ∀ event, s.latest = some event → ∀ client ∈ s.clients,
    (tick client s.latest).shown = some event

/-- The calls and the clients know the stored snapshots. -/
structure Known (s : TripStream P) : Prop where
  numbered : ∀ publishing ∈ s.calls, ∀ sequence, publishing.sequence = some sequence → 0 < sequence
  taken : ∀ publishing ∈ s.calls, publishing.stored = true → publishing.sequence.isSome
  recorded : ∀ sequence, (∃ event ∈ s.written, event.sequence = sequence) ↔
    ∃ publishing ∈ s.calls, publishing.stored = true ∧ publishing.sequence = some sequence
  last : ∀ event expires, s.snapshot = some (event, expires) → s.written.getLast? = some event
  seen : ∀ client ∈ s.clients, (client.shown = none ∧ client.lastSequence = 0) ∨
    ∃ event ∈ s.written, client.shown = some event ∧ client.lastSequence = event.sequence

section calls
variable {calls : List (Publishing P)} {call : Nat} {old new : Publishing P}
  {holds : Publishing P → Prop}

theorem forall_mem_set (each : ∀ publishing ∈ calls, holds publishing) (replaced : holds new) :
    ∀ publishing ∈ calls.set call new, holds publishing := by
  intro publishing member
  rcases List.mem_or_eq_of_mem_set member with before | rfl
  · exact each publishing before
  · exact replaced

theorem mem_set_of_getElem? (found : calls[call]? = some old) : new ∈ calls.set call new := by
  obtain ⟨inside, -⟩ := List.getElem?_eq_some_iff.mp found
  exact List.mem_set inside new

theorem exists_mem_set_iff (found : calls[call]? = some old) (same : holds new ↔ holds old) :
    (∃ publishing ∈ calls.set call new, holds publishing) ↔
      ∃ publishing ∈ calls, holds publishing := by
  constructor
  · rintro ⟨publishing, member, held⟩
    rcases List.mem_or_eq_of_mem_set member with before | rfl
    · exact ⟨publishing, before, held⟩
    · exact ⟨old, List.mem_of_getElem? found, same.mp held⟩
  · rintro ⟨publishing, member, held⟩
    obtain ⟨index, at_index⟩ := List.getElem?_of_mem member
    by_cases here : call = index
    · subst here
      obtain rfl := Option.some.inj (found.symm.trans at_index)
      exact ⟨new, mem_set_of_getElem? found, same.mpr held⟩
    · refine ⟨publishing, List.mem_of_getElem? (i := index) ?_, held⟩
      rw [List.getElem?_set_ne here, at_index]

end calls

variable {s t : TripStream P}

/-- A call moves on without storing. -/
theorem Known.move (known : s.Known) {call : Nat} {old : Publishing P} (new : Publishing P)
    (found : s.calls[call]? = some old) (same : new.stored = old.stored)
    (kept : old.stored = true → new.sequence = old.sequence)
    (positive : ∀ sequence, new.sequence = some sequence → 0 < sequence)
    (counter : Option (Nat × Nat)) :
    Known { s with counter := counter, calls := s.calls.set call new } where
  numbered := forall_mem_set known.numbered positive
  taken := by
    refine forall_mem_set known.taken fun stored => ?_
    rw [same] at stored
    rw [kept stored]
    exact known.taken old (List.mem_of_getElem? found) stored
  recorded sequence := by
    rw [known.recorded sequence]
    refine (exists_mem_set_iff found ?_).symm
    rw [same]
    refine and_congr_right fun stored => ?_
    rw [kept stored]
  last := known.last
  seen := known.seen

theorem increment_positive {full : Bool} : 0 < (s.increment full).1 := by
  unfold increment
  split
  · split
    · decide
    · exact Nat.one_pos
  · split
    · exact Nat.one_pos
    · exact Nat.succ_pos _

theorem seen_tick {client : StreamClient P}
    (seen : (client.shown = none ∧ client.lastSequence = 0) ∨
      ∃ event ∈ s.written, client.shown = some event ∧ client.lastSequence = event.sequence)
    (known : s.Known) :
    ((tick client s.latest).shown = none ∧ (tick client s.latest).lastSequence = 0) ∨
      ∃ event ∈ s.written, (tick client s.latest).shown = some event ∧
        (tick client s.latest).lastSequence = event.sequence := by
  cases found : s.latest with
  | none => exact seen
  | some event =>
      unfold tick
      dsimp only
      split
      · refine .inr ⟨event, ?_, rfl, rfl⟩
        unfold latest at found
        split at found
        next stored expires snapshot =>
          split at found
          · contradiction
          · cases found
            exact List.mem_of_getLast? (known.last _ _ snapshot)
        next => contradiction
      · exact seen

theorem Known.step (known : s.Known) {action : StreamAction P} (stepped : s.step action = some t) :
    t.Known := by
  cases action with
  | wait seconds =>
      cases stepped
      exact ⟨known.numbered, known.taken, known.recorded, known.last, known.seen⟩
  | publish payload =>
      cases stepped
      refine ⟨?_, ?_, ?_, known.last, known.seen⟩
      · intro publishing member
        rcases List.mem_append.mp member with before | new
        · exact known.numbered publishing before
        · obtain rfl := List.mem_singleton.mp new
          exact nofun
      · intro publishing member
        rcases List.mem_append.mp member with before | new
        · exact known.taken publishing before
        · obtain rfl := List.mem_singleton.mp new
          exact nofun
      · intro sequence
        rw [known.recorded sequence]
        constructor
        · rintro ⟨publishing, member, held⟩
          exact ⟨publishing, List.mem_append_left _ member, held⟩
        · rintro ⟨publishing, member, held⟩
          rcases List.mem_append.mp member with before | new
          · exact ⟨publishing, before, held⟩
          · obtain rfl := List.mem_singleton.mp new
            exact absurd held.1 Bool.false_ne_true
  | number call full =>
      obtain ⟨publishing, found, stepped⟩ := Option.bind_eq_some_iff.mp stepped
      split at stepped
      · contradiction
      next fresh =>
        cases stepped
        refine known.move { publishing with sequence := some (s.increment full).1 } found rfl
          (fun stored => ?_) ?_ _
        · have taken := known.taken publishing (List.mem_of_getElem? found) stored
          exact absurd (Or.inr taken) fresh
        · rintro sequence ⟨⟩
          exact increment_positive
  | store call fits =>
      obtain ⟨publishing, found, stepped⟩ := Option.bind_eq_some_iff.mp stepped
      obtain ⟨sequence, named, stepped⟩ := Option.bind_eq_some_iff.mp stepped
      have member := List.mem_of_getElem? found
      split at stepped
      · contradiction
      next open_call =>
        cases stepped
        refine ⟨?_, ?_, ?_, ?_, ?_⟩
        · exact forall_mem_set known.numbered (known.numbered publishing member)
        · exact forall_mem_set known.taken fun _ => by rw [named]; rfl
        · intro other
          constructor
          · rintro ⟨event, written, same⟩
            rcases List.mem_append.mp written with before | new
            · obtain ⟨writer, inside, held⟩ := (known.recorded other).mp ⟨event, before, same⟩
              obtain ⟨index, at_index⟩ := List.getElem?_of_mem inside
              have apart : call ≠ index := by
                rintro rfl
                obtain rfl := Option.some.inj (found.symm.trans at_index)
                exact open_call (Or.inr held.1)
              refine ⟨writer, List.mem_of_getElem? (i := index) ?_, held⟩
              rw [List.getElem?_set_ne apart, at_index]
            · obtain rfl := List.mem_singleton.mp new
              obtain rfl := same
              exact ⟨_, mem_set_of_getElem? found, rfl, named⟩
          · rintro ⟨writer, inside, held⟩
            rcases List.mem_or_eq_of_mem_set inside with before | rfl
            · obtain ⟨event, written, same⟩ := (known.recorded other).mpr ⟨writer, before, held⟩
              exact ⟨event, List.mem_append_left _ written, same⟩
            · refine ⟨_, List.mem_append_right _ (List.mem_singleton_self _), ?_⟩
              exact Option.some.inj (named.symm.trans held.2)
        · intro event expires snapshot
          dsimp only at snapshot
          split at snapshot
          · cases snapshot
            exact List.getLast?_concat ..
          · contradiction
        · intro client reader
          rcases known.seen client reader with unseen | ⟨event, written, shown⟩
          · exact .inl unseen
          · exact .inr ⟨event, List.mem_append_left _ written, shown⟩
  | announce call =>
      obtain ⟨publishing, found, stepped⟩ := Option.bind_eq_some_iff.mp stepped
      split at stepped
      · contradiction
      · cases stepped
        exact known.move { publishing with ended := true } found rfl (fun _ => rfl)
          (known.numbered publishing (List.mem_of_getElem? found)) s.counter
  | fail call =>
      obtain ⟨publishing, found, stepped⟩ := Option.bind_eq_some_iff.mp stepped
      split at stepped
      · contradiction
      · cases stepped
        exact known.move { publishing with ended := true } found rfl (fun _ => rfl)
          (known.numbered publishing (List.mem_of_getElem? found)) s.counter
  | evict =>
      cases stepped
      exact ⟨known.numbered, known.taken, known.recorded, nofun, known.seen⟩
  | connect =>
      cases stepped
      refine ⟨known.numbered, known.taken, known.recorded, known.last, ?_⟩
      intro client member
      rcases List.mem_append.mp member with before | new
      · exact known.seen client before
      · obtain rfl := List.mem_singleton.mp new
        exact .inl ⟨rfl, rfl⟩
  | poll client =>
      obtain ⟨reader, found, stepped⟩ := Option.bind_eq_some_iff.mp stepped
      cases stepped
      refine ⟨known.numbered, known.taken, known.recorded, known.last, ?_⟩
      intro other member
      rcases List.mem_or_eq_of_mem_set member with before | rfl
      · exact known.seen other before
      · exact seen_tick (known.seen reader (List.mem_of_getElem? found)) known

theorem known_reachable (reached : (machine P).Reachable s) : s.Known := by
  refine reached.invariant ?_ fun known stepped => Known.step known stepped
  rintro s rfl
  refine ⟨by simp, by simp, by simp, by simp, by simp⟩

/-- A snapshot that is stored in order comes last and has the highest number. -/
theorem grows_step {action : StreamAction P} (known : s.Known)
    (grows : s.written.Pairwise fun before after => before.sequence < after.sequence)
    (ordered : s.InOrder action) (stepped : s.step action = some t) :
    t.written.Pairwise fun before after => before.sequence < after.sequence := by
  cases action with
  | store call fits =>
      obtain ⟨publishing, found, stepped⟩ := Option.bind_eq_some_iff.mp stepped
      obtain ⟨sequence, named, stepped⟩ := Option.bind_eq_some_iff.mp stepped
      split at stepped
      · contradiction
      · cases stepped
        refine List.pairwise_append.mpr ⟨grows, List.pairwise_singleton .., ?_⟩
        intro event written new member
        obtain rfl := List.mem_singleton.mp member
        obtain ⟨writer, inside, stored, same⟩ :=
          (known.recorded event.sequence).mp ⟨event, written, rfl⟩
        exact ordered publishing found sequence named writer inside stored _ same
  | number call full =>
      obtain ⟨publishing, -, stepped⟩ := Option.bind_eq_some_iff.mp stepped
      split at stepped
      · contradiction
      · cases stepped
        exact grows
  | announce call =>
      obtain ⟨publishing, -, stepped⟩ := Option.bind_eq_some_iff.mp stepped
      split at stepped
      · contradiction
      · cases stepped
        exact grows
  | fail call =>
      obtain ⟨publishing, -, stepped⟩ := Option.bind_eq_some_iff.mp stepped
      split at stepped
      · contradiction
      · cases stepped
        exact grows
  | poll client =>
      obtain ⟨reader, -, stepped⟩ := Option.bind_eq_some_iff.mp stepped
      cases stepped
      exact grows
  | wait => cases stepped; exact grows
  | publish => cases stepped; exact grows
  | evict => cases stepped; exact grows
  | connect => cases stepped; exact grows

theorem latest_eq_some {event : StreamEvent P} (found : s.latest = some event) :
    ∃ expires, s.snapshot = some (event, expires) := by
  unfold latest at found
  split at found
  next stored expires snapshot =>
    split at found
    · contradiction
    · cases found
      exact ⟨expires, snapshot⟩
  next => contradiction

theorem sequence_le_last {events : List (StreamEvent P)} {last event : StreamEvent P}
    (grows : events.Pairwise fun before after => before.sequence < after.sequence)
    (ends : events.getLast? = some last) (member : event ∈ events) :
    event.sequence < last.sequence ∨ event = last := by
  obtain ⟨before, rfl⟩ := List.getLast?_eq_some_iff.mp ends
  rcases List.mem_append.mp member with earlier | final
  · exact .inl ((List.pairwise_append.mp grows).2.2 event earlier last (List.mem_singleton_self _))
  · exact .inr (List.mem_singleton.mp final)

theorem Known.ordered (known : s.Known)
    (grows : s.written.Pairwise fun before after => before.sequence < after.sequence) :
    s.Ordered where
  grows := grows
  newest event expires snapshot := by
    have ends := known.last event expires snapshot
    refine ⟨ends, fun publishing member stored sequence named => ?_⟩
    obtain ⟨other, written, rfl⟩ := (known.recorded sequence).mpr ⟨publishing, member, stored, named⟩
    rcases sequence_le_last grows ends written with below | rfl
    · exact below.le
    · exact le_rfl
  delivered event found client member := by
    obtain ⟨expires, snapshot⟩ := latest_eq_some found
    have ends := known.last event expires snapshot
    have written := List.mem_of_getLast? ends
    obtain ⟨writer, inside, -, named⟩ := (known.recorded event.sequence).mp ⟨event, written, rfl⟩
    have positive := known.numbered writer inside event.sequence named
    rw [found, tick]
    split
    · rfl
    next late =>
      -- A client whose last id is not below the snapshot's has shown that very snapshot.
      rcases known.seen client member with ⟨-, start⟩ | ⟨other, before, shown, same⟩
      · omega
      · rcases sequence_le_last grows ends before with below | rfl
        · omega
        · exact shown

/-- A run that stores its snapshots in order keeps the promises of the stream in every state, and a
snapshot stored out of order breaks them. -/
theorem trip_stream_ordered {P : Type} (s : TripStream P)
    (reached : ((machine P).restrict InOrder).Reachable s) :
    s.Ordered ∧ ∀ action t, (machine P).step s action = some t → ¬ s.InOrder action →
      ¬ t.Ordered := by
  have known := known_reachable reached.of_restrict
  have grows : s.Known ∧ s.written.Pairwise fun before after => before.sequence < after.sequence := by
    refine Machine.Reachable.invariant (P := fun s : TripStream P => s.Known ∧
      s.written.Pairwise fun before after => before.sequence < after.sequence) ?_
      (fun {before action after} both stepped => ?_) reached
    · rintro start rfl
      exact ⟨known_reachable ⟨_, rfl, .refl _⟩, List.Pairwise.nil⟩
    · obtain ⟨ordered, stepped⟩ := Machine.restrict_step.mp stepped
      exact ⟨both.1.step stepped, grows_step both.1 both.2 ordered stepped⟩
  refine ⟨known.ordered grows.2, fun action t stepped overtaken ordered => overtaken ?_⟩
  cases action with
  | store call fits =>
      intro publishing found sequence named other inside stored earlier taken
      obtain ⟨publishing', found', stepped⟩ := Option.bind_eq_some_iff.mp stepped
      obtain rfl := Option.some.inj (found.symm.trans found')
      obtain ⟨sequence', named', stepped⟩ := Option.bind_eq_some_iff.mp stepped
      obtain rfl := Option.some.inj (named.symm.trans named')
      obtain ⟨event, written, rfl⟩ := (known.recorded earlier).mpr ⟨other, inside, stored, taken⟩
      split at stepped
      · contradiction
      · cases stepped
        exact (List.pairwise_append.mp ordered.grows).2.2 event written _ (List.mem_singleton_self _)
  | wait | publish | number | announce | fail | evict | connect | poll => trivial

/-! Two publishers: the newer one is stored first, or the older one. -/

def twoPublishers (first second : Nat) : List (StreamAction String) :=
  [.publish "delayed", .publish "rerouted", .number 0 false, .number 1 false, .store first true,
    .store second true, .announce first, .announce second, .connect, .poll 0]

theorem trip_stream_ordered_polled : ∃ s : TripStream String,
    (machine String).run {} (twoPublishers 0 1) = some s ∧ s.Ordered ∧
      s.clients = [⟨2, some ⟨2, "rerouted"⟩⟩] := by
  obtain ⟨s, ran⟩ : ∃ s, (machine String).run {} (twoPublishers 0 1) = some s :=
    ⟨_, rfl⟩
  have met : (machine String).along (fun s action => decide (s.InOrder action)) {}
      (twoPublishers 0 1) = true := by decide +kernel
  have ordered := Machine.meetsAlong_of_along met
  simp only [decide_eq_true_eq] at ordered
  refine ⟨s, ran, (trip_stream_ordered s
    (Machine.reachable_restrict_of_run _ rfl ran ordered)).1, ?_⟩
  have shown : ((machine String).run {} (twoPublishers 0 1)).map TripStream.clients =
      some [⟨2, some ⟨2, "rerouted"⟩⟩] := by decide +kernel
  rw [ran] at shown
  exact Option.some.inj shown

/-- The older snapshot takes the place of the newer one, and a new client is shown the older. -/
theorem older_snapshot_stays : ∃ s : TripStream String,
    (machine String).Reachable s ∧ (∀ publishing ∈ s.calls, publishing.ended = true) ∧
      s.written = [⟨2, "rerouted"⟩, ⟨1, "delayed"⟩] ∧ s.latest = some ⟨1, "delayed"⟩ ∧
      s.clients = [⟨1, some ⟨1, "delayed"⟩⟩] ∧ ¬ s.Ordered := by
  obtain ⟨s, ran⟩ : ∃ s, (machine String).run {} (twoPublishers 1 0) = some s := ⟨_, rfl⟩
  have ends : ((machine String).run {} (twoPublishers 1 0)).map (fun s =>
      (decide (∀ publishing ∈ s.calls, publishing.ended = true), s.written, s.latest, s.clients)) =
      some (true, [⟨2, "rerouted"⟩, ⟨1, "delayed"⟩], some ⟨1, "delayed"⟩,
        [⟨1, some ⟨1, "delayed"⟩⟩]) := by decide +kernel
  rw [ran] at ends
  obtain ⟨closed, written, latest, clients⟩ := by simpa using ends
  refine ⟨s, Machine.reachable_of_run _ rfl ran, closed, written, latest, clients, fun ordered => ?_⟩
  have grows := ordered.grows
  rw [written] at grows
  simp at grows

end TripStream
end MapGo.Companion
