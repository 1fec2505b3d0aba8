import MapGo.Messages.Memory

/-! The idempotency of publications over whole runs. The table of idempotency keys is shared by all
channels and keeps the latest keys alone, as many as one channel may hold messages; so what it knows
of a history of publications are the last of them, as long as they have not expired. -/
namespace MapGo.Messages

open Transition

variable {C : Type}

/-- A run with the publications that it made: their keys and times, in their order. -/
structure PublishRun (C : Type) where
  state : MemoryState C := {}
  history : List (String × Nat) := []

namespace InMemoryAgentMessageTransport
variable (t : InMemoryAgentMessageTransport C)

/-- The message passes the router and its channel has room. -/
def admits (s : MemoryState C) (message : AgentMessage C) : Bool :=
  (match t.router.validate message s.utc with
    | .ok _ => true
    | .error _ => false) &&
  decide ((s.queue.filter fun copy => copy.message.channel = message.channel).length < t.capacity)

/-- What an operation publishes. -/
def publishedBy (s : MemoryState C) : TransportAction C → List (String × Nat)
  | .publish message =>
      match (t.publish s message).1 with
      | .ok true => [(message.idempotencyKey, s.now)]
      | _ => []
  | _ => []

def publishMachine : Machine (PublishRun C) (TransportAction C) where
  initial s := s = {}
  step s a := ((memoryMachine t).step s.state a).map fun next =>
    ⟨next, s.history ++ t.publishedBy s.state a⟩

/-- Publications of a key are at least the time to live apart. -/
def OncePerTtl (history : List (String × Nat)) : Prop :=
  history.Pairwise fun earlier later => earlier.1 = later.1 → earlier.2 + t.ttlMs ≤ later.2

/-- A key that is published again before its time comes before a whole table of other ones. -/
def prompt (s : PublishRun C) : TransportAction C → Bool
  | .publish message =>
      !t.admits s.state message || (s.history.rdrop t.capacity).all fun earlier =>
        decide (earlier.1 = message.idempotencyKey → earlier.2 + t.ttlMs ≤ s.state.now)
  | _ => true

end InMemoryAgentMessageTransport

section
variable {α β : Type} {items : List α}

/-- Dropping a prefix and the last elements commute. -/
theorem rtake_filter {p : α → Bool} (onward : items.Pairwise fun a b => p a = true → p b = true)
    (n : Nat) : (items.filter p).rtake n = (items.rtake n).filter p := by
  induction items using List.reverseRecOn generalizing n with
  | nil => simp
  | append_singleton rest last ih =>
      obtain ⟨before, -, across⟩ := List.pairwise_append.mp onward
      by_cases kept : p last = true
      · cases n with
        | zero => simp
        | succ n => simp [kept, List.rtake_concat_succ, ih before]
      · have empty : ∀ a ∈ rest ++ [last], ¬ p a = true := by
          intro a member
          rcases List.mem_append.mp member with old | new
          · exact fun passes => kept (across a old last (List.mem_singleton_self last) passes)
          · exact List.mem_singleton.mp new ▸ kept
        have part : ∀ a ∈ (rest ++ [last]).rtake n, ¬ p a = true := fun a member =>
          empty a (List.mem_of_mem_drop member)
        rw [List.filter_eq_nil_iff.mpr empty, List.filter_eq_nil_iff.mpr part, List.rtake_nil]

theorem rtake_map (f : α → β) (n : Nat) : (items.map f).rtake n = (items.rtake n).map f := by
  simp [List.rtake, List.map_drop]

theorem rtake_rtake_succ (n : Nat) : (items.rtake (n + 1)).rtake n = items.rtake n := by
  simp [List.rtake_eq_reverse_take_reverse, List.take_take]

theorem rdrop_append_rtake (n : Nat) : items.rdrop n ++ items.rtake n = items :=
  List.take_append_drop ..

end

namespace InMemoryAgentMessageTransport
variable {t : InMemoryAgentMessageTransport C} {s : MemoryState C} {message : AgentMessage C}

/-- The entries of the table that a purge leaves. -/
def unexpiredKeys (s : MemoryState C) (now : Nat) : List (String × Nat) :=
  s.published.filter fun entry => now < entry.2

/-- What a publish answers and leaves in the table. -/
theorem publish_cases (t : InMemoryAgentMessageTransport C) (s : MemoryState C)
    (message : AgentMessage C) :
    (t.admits s message = true ∧ message.idempotencyKey ∉ (unexpiredKeys s s.now).map Prod.fst ∧
      t.publishedBy s (.publish message) = [(message.idempotencyKey, s.now)] ∧
      (t.publish s message).2.published = (unexpiredKeys s s.now).rtake (t.capacity - 1) ++
        [(message.idempotencyKey, s.now + t.ttlMs)]) ∨
    ((t.admits s message = false ∨
        message.idempotencyKey ∈ (unexpiredKeys s s.now).map Prod.fst) ∧
      t.publishedBy s (.publish message) = [] ∧
      ∀ later, s.now ≤ later →
        unexpiredKeys (t.publish s message).2 later = unexpiredKeys s later) := by
  have purged (later : Nat) (late : s.now ≤ later) :
      (unexpiredKeys s s.now).filter (fun entry => later < entry.2) = unexpiredKeys s later := by
    rw [unexpiredKeys, List.filter_filter]
    refine List.filter_congr fun entry _ => ?_
    by_cases unexpired : later < entry.2
    · simp [unexpired, lt_of_le_of_lt late unexpired]
    · simp [unexpired]
  cases checked : t.router.validate message s.utc with
  | error error =>
      refine .inr ⟨.inl ?_, ?_, fun later _ => ?_⟩ <;> simp [admits, publishedBy, publish, checked]
  | ok passed =>
      by_cases known : message.idempotencyKey ∈ (unexpiredKeys s s.now).map Prod.fst
      · have answered : t.publish s message =
            (.ok false, { s with published := unexpiredKeys s s.now }) := by
          unfold publish
          rw [checked]
          exact if_pos known
        refine .inr ⟨.inr known, ?_, fun later late => ?_⟩
        · simp [publishedBy, answered]
        · rw [answered]
          exact purged later late
      · by_cases full : t.capacity ≤
            (s.queue.filter fun copy => copy.message.channel = message.channel).length
        · have answered : t.publish s message =
              (.error (.runtime "agent_message_queue_capacity_exceeded"),
                { s with published := unexpiredKeys s s.now }) := by
            unfold publish
            rw [checked]
            exact (if_neg known).trans (if_pos full)
          refine .inr ⟨.inl ?_, ?_, fun later late => ?_⟩
          · simpa [admits, checked] using full
          · simp [publishedBy, answered]
          · rw [answered]
            exact purged later late
        · have answered : t.publish s message = (.ok true, { s with
              published := (unexpiredKeys s s.now).drop
                  ((unexpiredKeys s s.now).length + 1 - t.capacity) ++
                [(message.idempotencyKey, s.now + t.ttlMs)]
              queue := s.queue ++ [⟨s.publications, message⟩]
              publications := s.publications + 1 }) := by
            unfold publish
            rw [checked]
            exact (if_neg known).trans (if_neg full)
          refine .inl ⟨?_, known, ?_, ?_⟩
          · simpa [admits, checked] using full
          · simp [publishedBy, answered]
          · have positive : 100 ≤ t.capacity := le_max_left ..
            rw [answered, List.rtake]
            dsimp only
            congr 2
            omega

/-- Operations other than `publish` do not touch the table. -/
theorem step_published {u : MemoryState C} {a : TransportAction C}
    (stepped : (memoryMachine t).step s a = some u) (other : ∀ message, a ≠ .publish message) :
    s.now ≤ u.now ∧ u.published = s.published := by
  cases a with
  | publish message => exact absurd rfl (other message)
  | receive channel consumer =>
      cases stepped
      unfold receive
      split
      · exact ⟨le_rfl, rfl⟩
      · dsimp only
        split <;> exact ⟨le_rfl, rfl⟩
  | acknowledge delivery =>
      obtain ⟨d, -, rfl⟩ := Option.map_eq_some_iff.mp stepped
      unfold acknowledge
      split <;> exact ⟨le_rfl, rfl⟩
  | retry delivery errorCode maxAttempts =>
      obtain ⟨d, -, rfl⟩ := Option.map_eq_some_iff.mp stepped
      unfold retry
      split
      · exact ⟨le_rfl, rfl⟩
      · split
        · exact ⟨le_rfl, rfl⟩
        · dsimp only
          split <;> exact ⟨le_rfl, rfl⟩
  | reclaim channel consumer minIdleMs count =>
      cases stepped
      exact ⟨le_rfl, rfl⟩
  | wait ms =>
      cases stepped
      exact ⟨Nat.le_add_right .., rfl⟩
  | clock utc =>
      cases stepped
      exact ⟨le_rfl, rfl⟩

theorem publish_now (message : AgentMessage C) : (t.publish s message).2.now = s.now := by
  unfold publish
  split
  · rfl
  · dsimp only
    split
    · rfl
    · split <;> rfl

end InMemoryAgentMessageTransport

namespace PublishRun
open InMemoryAgentMessageTransport
variable {t : InMemoryAgentMessageTransport C} {s u : PublishRun C} {a : TransportAction C}

/-- The table entries of the last publications. -/
def remembered (t : InMemoryAgentMessageTransport C) (history : List (String × Nat)) :
    List (String × Nat) :=
  (history.rtake t.capacity).map fun publication => (publication.1, publication.2 + t.ttlMs)

/-- The unexpired keys are those of the last publications. -/
structure Remembers (t : InMemoryAgentMessageTransport C) (s : PublishRun C) : Prop where
  ordered : s.history.Pairwise fun earlier later => earlier.2 ≤ later.2
  past : ∀ publication ∈ s.history, publication.2 ≤ s.state.now
  table : ∀ later, s.state.now ≤ later → unexpiredKeys s.state later =
    (remembered t s.history).filter fun entry => later < entry.2

/-- Publishing forgets what expired and the oldest publication beyond the capacity. -/
theorem Remembers.published (remembers : s.Remembers t) (key : String) {later : Nat}
    (late : s.state.now ≤ later) :
    ((unexpiredKeys s.state s.state.now).rtake (t.capacity - 1) ++
        [(key, s.state.now + t.ttlMs)]).filter (fun entry => later < entry.2) =
      (remembered t (s.history ++ [(key, s.state.now)])).filter fun entry => later < entry.2 := by
  have positive : 100 ≤ t.capacity := le_max_left ..
  obtain ⟨n, size⟩ : ∃ n, t.capacity = n + 1 := ⟨t.capacity - 1, by omega⟩
  have ordered : ((s.history.rtake (n + 1)).map fun publication =>
      (publication.1, publication.2 + t.ttlMs)).Pairwise fun a b =>
        decide (s.state.now < a.2) = true → decide (s.state.now < b.2) = true := by
    refine List.pairwise_map.mpr ((remembers.ordered.drop).imp fun before => ?_)
    simp only [decide_eq_true_eq]
    omega
  rw [remembers.table _ le_rfl, remembered, remembered, size, Nat.add_sub_cancel,
    rtake_filter ordered, rtake_map, rtake_rtake_succ, List.rtake_concat_succ, List.map_append,
    List.filter_append, List.filter_append, List.filter_filter]
  refine congrArg₂ _ (List.filter_congr fun entry _ => ?_) rfl
  by_cases unexpired : later < entry.2
  · simp [unexpired, lt_of_le_of_lt late unexpired]
  · simp [unexpired]

theorem Remembers.initial : ({} : PublishRun C).Remembers t := by
  refine ⟨.nil, by simp, fun later _ => ?_⟩
  simp [unexpiredKeys, remembered]

theorem Remembers.step (remembers : s.Remembers t)
    (stepped : t.publishMachine.step s a = some u) : u.Remembers t := by
  obtain ⟨next, moved, rfl⟩ := Option.map_eq_some_iff.mp stepped
  by_cases publishes : ∃ message, a = .publish message
  · obtain ⟨message, rfl⟩ := publishes
    cases moved
    have now := publish_now (t := t) (s := s.state) message
    obtain ⟨-, -, made, table⟩ | ⟨-, nothing, same⟩ := publish_cases t s.state message
    · refine ⟨?_, ?_, fun later late => ?_⟩
      · rw [made]
        refine List.pairwise_append.mpr ⟨remembers.ordered, List.pairwise_singleton .., ?_⟩
        intro earlier member last new
        rw [List.mem_singleton.mp new]
        exact remembers.past earlier member
      · intro publication member
        dsimp only at member ⊢
        rw [made] at member
        rw [now]
        rcases List.mem_append.mp member with old | new
        · exact remembers.past publication old
        · exact (List.mem_singleton.mp new ▸ le_rfl)
      · dsimp only at late ⊢
        rw [now] at late
        rw [made, ← remembers.published message.idempotencyKey late, unexpiredKeys, table]
    · rw [nothing, List.append_nil]
      refine ⟨remembers.ordered, ?_, fun later late => ?_⟩
      · dsimp only
        rw [now]
        exact remembers.past
      · dsimp only at late ⊢
        rw [now] at late
        rw [same later late, remembers.table later late]
  · have nothing : t.publishedBy s.state a = [] := by
      cases a with
      | publish message => exact absurd ⟨message, rfl⟩ publishes
      | _ => rfl
    obtain ⟨clock, same⟩ :=
      step_published moved fun message equal => publishes ⟨message, equal⟩
    rw [nothing, List.append_nil]
    refine ⟨remembers.ordered, fun publication member =>
      (remembers.past publication member).trans clock, fun later late => ?_⟩
    have table := remembers.table later (clock.trans late)
    rw [unexpiredKeys, same]
    exact table

/-- A key is in the purged table exactly if one of the last publications of it has not expired. -/
theorem Remembers.known_iff (remembers : s.Remembers t) {key : String} :
    key ∈ (unexpiredKeys s.state s.state.now).map Prod.fst ↔
      ∃ publication ∈ s.history.rtake t.capacity, publication.1 = key ∧
        s.state.now < publication.2 + t.ttlMs := by
  rw [remembers.table _ le_rfl, remembered]
  simp only [List.mem_map, List.mem_filter, decide_eq_true_eq]
  constructor
  · rintro ⟨_, ⟨⟨publication, member, rfl⟩, unexpired⟩, rfl⟩
    exact ⟨publication, member, rfl, unexpired⟩
  · rintro ⟨publication, member, rfl, unexpired⟩
    exact ⟨_, ⟨⟨publication, member, rfl⟩, unexpired⟩, rfl⟩

/-- A step keeps publications of one key apart exactly if it meets the condition. -/
theorem Remembers.once_step (remembers : s.Remembers t) (once : t.OncePerTtl s.history)
    (stepped : t.publishMachine.step s a = some u) :
    t.OncePerTtl u.history ↔ t.prompt s a = true := by
  obtain ⟨next, moved, rfl⟩ := Option.map_eq_some_iff.mp stepped
  cases a with
  | publish message =>
      have prompt : t.prompt s (.publish message) = true ↔ (t.admits s.state message = true →
          ∀ earlier ∈ s.history.rdrop t.capacity, earlier.1 = message.idempotencyKey →
            earlier.2 + t.ttlMs ≤ s.state.now) := by
        cases admitted : t.admits s.state message with
        | false => simp [InMemoryAgentMessageTransport.prompt, admitted]
        | true =>
            simp only [InMemoryAgentMessageTransport.prompt, admitted, Bool.not_true,
              Bool.false_or, List.all_eq_true, decide_eq_true_eq, true_imp_iff]
      have whole : s.history.rdrop t.capacity ++ s.history.rtake t.capacity = s.history :=
        rdrop_append_rtake t.capacity
      rw [prompt]
      obtain ⟨admitted, new, made, -⟩ | ⟨refused, nothing, -⟩ :=
        publish_cases t s.state message
      · rw [made]
        constructor
        · intro apart _ earlier old same
          have member : earlier ∈ s.history := whole ▸ List.mem_append_left _ old
          exact (List.pairwise_append.mp apart).2.2 earlier member _
            (List.mem_singleton_self _) same
        · intro met
          refine List.pairwise_append.mpr ⟨once, List.pairwise_singleton .., ?_⟩
          intro earlier member last here
          rw [List.mem_singleton.mp here]
          intro same
          rw [← whole] at member
          rcases List.mem_append.mp member with old | recent
          · exact met admitted earlier old same
          · by_contra unexpired
            exact new (remembers.known_iff.mpr ⟨earlier, recent, same, not_le.mp unexpired⟩)
      · rw [nothing, List.append_nil]
        refine ⟨fun _ admitted earlier old same => ?_, fun _ => once⟩
        rcases refused with refused | known
        · exact absurd admitted (by simp [refused])
        · obtain ⟨later, recent, twin, unexpired⟩ := remembers.known_iff.mp known
          have apart : t.OncePerTtl (s.history.rdrop t.capacity ++ s.history.rtake t.capacity) :=
            whole.symm ▸ once
          have gap := (List.pairwise_append.mp apart).2.2 earlier old later recent
            (same.trans twin.symm)
          have past := remembers.past later (whole ▸ List.mem_append_right _ recent)
          exact gap.trans past
  | _ => simpa [publishedBy, InMemoryAgentMessageTransport.prompt] using once

theorem history_step (stepped : t.publishMachine.step s a = some u) :
    ∃ made, u.history = s.history ++ made := by
  obtain ⟨next, -, rfl⟩ := Option.map_eq_some_iff.mp stepped
  exact ⟨_, rfl⟩

theorem Remembers.once_run {actions : List (TransportAction C)} (remembers : s.Remembers t)
    (ran : t.publishMachine.run s actions = some u) :
    t.OncePerTtl u.history ↔
      t.OncePerTtl s.history ∧ t.publishMachine.along t.prompt s actions = true := by
  induction actions generalizing s with
  | nil =>
      cases Option.some.inj ran
      exact (and_iff_left rfl).symm
  | cons a rest ih =>
      obtain ⟨middle, stepped, ran⟩ := Option.bind_eq_some_iff.mp ran
      rw [ih (remembers.step stepped) ran, Machine.along, stepped, Bool.and_eq_true, ← and_assoc]
      refine and_congr_left fun _ => ⟨fun once => ?_, fun kept =>
        (remembers.once_step kept.1 stepped).mpr kept.2⟩
      obtain ⟨made, history⟩ := history_step stepped
      have before : t.OncePerTtl s.history := by
        rw [history] at once
        exact (List.pairwise_append.mp once).1
      exact ⟨before, (remembers.once_step before stepped).mp once⟩

end PublishRun

/-- In every run the publications of one key are a time to live apart, exactly as long as no message
that is admitted comes again within that time after a whole capacity of publications. -/
theorem published_once_iff {t : InMemoryAgentMessageTransport C} {s : PublishRun C}
    {actions : List (TransportAction C)} (ran : t.publishMachine.run {} actions = some s) :
    (s.history.Pairwise fun earlier later => earlier.1 = later.1 →
      earlier.2 + t.ttlMs ≤ later.2) ↔ t.publishMachine.along t.prompt {} actions = true :=
  (PublishRun.Remembers.initial.once_run ran).trans (and_iff_right .nil)

/-- A router that knows contents by their numbers. -/
def numberRouter : AgentMessageRouter Nat where
  payloadError _ _ _ := none
  bytes _ := 4
  sha256 content := toString content
  sha256Object members := ((members.lookup "content_hash").join).getD ""

/-- An observation, to the inbox of its parity. -/
def numbered (content : Nat) : AgentMessage Nat where
  taskId := "trip-1-state"
  sender := .system
  receiver := .companion
  messageType := .event
  artifactType := "trip_observation"
  content := content
  contentHash := toString content
  idempotencyKey := toString content
  correlationId := "c1"
  inbox := if content % 2 = 0 then none else some "reply-1"

/-- A transport with the smallest table. -/
def smallest : InMemoryAgentMessageTransport Nat where
  router := numberRouter
  maxMessagesPerRole := 100

/-- A duplicate is refused, and published again after a day. -/
theorem published_once_iff_next_day : ∃ s, smallest.publishMachine.run {}
    [.publish (numbered 0), .receive (.companion, none) "worker-1", .wait 1000,
      .publish (numbered 0), .wait 86400000, .publish (numbered 0)] = some s ∧
    s.history = [("0", 0), ("0", 86401000)] ∧
    s.history.Pairwise fun earlier later => earlier.1 = later.1 →
      earlier.2 + smallest.ttlMs ≤ later.2 := by
  have ran : ∃ s, smallest.publishMachine.run {}
      [.publish (numbered 0), .receive (.companion, none) "worker-1", .wait 1000,
        .publish (numbered 0), .wait 86400000, .publish (numbered 0)] = some s ∧
      s.history = [("0", 0), ("0", 86401000)] := by decide +kernel
  obtain ⟨s, ran, history⟩ := ran
  exact ⟨s, ran, history, (published_once_iff ran).mpr (by decide +kernel)⟩

/-- A hundred other messages on two channels, and the first one is published again at once. -/
theorem flood_publishes_twice : ∃ s, smallest.publishMachine.run {}
    ((List.range 101 ++ [0]).map fun content => .publish (numbered content)) = some s ∧
    ¬ s.history.Pairwise fun earlier later => earlier.1 = later.1 →
      earlier.2 + smallest.ttlMs ≤ later.2 := by
  decide +kernel

end MapGo.Messages
