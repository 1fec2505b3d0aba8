import MapGo.Transition

/-! The queues of the two runtime stores. In memory a queue is a list and its reservations are a
dictionary by receipts; Redis has two lists for them, which are used from opposite ends, and a
receipt is the text of the payload. -/
namespace MapGo.Runtime

open Transition

/-- `json.dumps` and `json.loads` on payloads. -/
structure PayloadCodec (P : Type) where
  dumps : P → String
  loads : String → Option P
  loads_dumps : ∀ payload, loads (dumps payload) = some payload
  nonempty : ∀ payload, dumps payload ≠ ""

theorem PayloadCodec.injective {P : Type} (codec : PayloadCodec P) :
    Function.Injective codec.dumps := by
  intro a b same
  have loaded := codec.loads_dumps a
  rw [same, codec.loads_dumps] at loaded
  exact (Option.some.inj loaded).symm

/-- Calls of a client, which names its reservations by their numbers. -/
inductive QueueCall (P : Type) where
  | enqueue (queue : String) (payload : P)
  | reserve (queue : String) (timeoutSeconds : Int)
  | acknowledge (queue : String) (reservation : Nat)
  | recoverProcessing (queue : String) (limit : Int)

def QueueCall.queue {P : Type} : QueueCall P → String
  | .enqueue queue _ | .reserve queue _ | .acknowledge queue _ | .recoverProcessing queue _ => queue

inductive QueueAnswer (P : Type) where
  | done
  | reserved (payload : Option P)
  | acknowledged (removed : Bool)
  | recovered (count : Nat)
  /-- The call never returns. -/
  | waits
  | raised
  deriving DecidableEq

variable {P : Type}

/-- The queues of `InMemoryRuntimeStore`. -/
structure InMemoryQueues (P : Type) where
  queues : String → List P := fun _ => []
  /-- The reservations of a queue by their receipts, in insertion order. -/
  processing : String → List (Nat × P) := fun _ => []
  /-- The payloads that were delivered; their numbers are the receipts. -/
  delivered : List P := []

namespace InMemoryQueues
variable (s : InMemoryQueues P) (queue : String)

def enqueue (payload : P) : InMemoryQueues P :=
  { s with queues := Function.update s.queues queue (s.queues queue ++ [payload]) }

/-- `reserve`; an empty queue stays empty until the deadline. -/
def reserve : Option P × InMemoryQueues P :=
  match s.queues queue with
  | [] => (none, s)
  | payload :: rest =>
      (some payload,
        { queues := Function.update s.queues queue rest
          processing := Function.update s.processing queue
            (s.processing queue ++ [(s.delivered.length, payload)])
          delivered := s.delivered ++ [payload] })

/-- `self._processing[queue].pop(receipt, None)` -/
def remove (receipt : Nat) : InMemoryQueues P :=
  { s with
    processing := Function.update s.processing queue
      ((s.processing queue).filter fun entry => entry.1 ≠ receipt) }

def acknowledge (receipt : Nat) : Bool × InMemoryQueues P :=
  ((s.processing queue).any fun entry => entry.1 = receipt, s.remove queue receipt)

/-- A recovered payload goes to the front of the queue. -/
def putBack (entry : Nat × P) : InMemoryQueues P :=
  let s := { s with queues := Function.update s.queues queue (entry.2 :: s.queues queue) }
  s.remove queue entry.1

def recoverProcessing (limit : Int) : Nat × InMemoryQueues P :=
  let pending := (s.processing queue).take limit.toNat
  (pending.length, pending.foldl (fun s entry => s.putBack queue entry) s)

def call : QueueCall P → QueueAnswer P × InMemoryQueues P
  | .enqueue queue payload => (.done, s.enqueue queue payload)
  | .reserve queue _ => (.reserved (s.reserve queue).1, (s.reserve queue).2)
  | .acknowledge queue reservation =>
      (.acknowledged (s.acknowledge queue reservation).1, (s.acknowledge queue reservation).2)
  | .recoverProcessing queue limit =>
      (.recovered (s.recoverProcessing queue limit).1, (s.recoverProcessing queue limit).2)

end InMemoryQueues

/-- The lists of a Redis server by their names, from head to tail. -/
abbrev RedisLists := String → List String

namespace RedisLists
variable (lists : RedisLists)

def lpush (key item : String) : RedisLists := Function.update lists key (item :: lists key)

/-- `RPOPLPUSH`, and `BRPOPLPUSH` without its waiting. -/
def rpoplpush (source target : String) : Option (String × RedisLists) :=
  (lists source).getLast?.map fun item =>
    (item, lpush (Function.update lists source (lists source).dropLast) target item)

/-- `LREM key 1 item` -/
def lrem (key item : String) : Bool × RedisLists :=
  (decide (item ∈ lists key), Function.update lists key ((lists key).erase item))

end RedisLists

/-- The queues of `RedisRuntimeStore`, with the receipts that it has handed out. -/
structure RedisQueues where
  lists : RedisLists := fun _ => []
  receipts : List String := []

def processingList (queue : String) : String := queue ++ ":processing"

namespace RedisQueues
variable (codec : PayloadCodec P) (s : RedisQueues) (queue : String)

def enqueue (payload : P) : RedisQueues :=
  { s with lists := s.lists.lpush queue (codec.dumps payload) }

/-- `reserve`: Redis refuses a negative timeout, and zero is none. -/
def reserve (timeoutSeconds : Int) : QueueAnswer P × RedisQueues :=
  if timeoutSeconds < 0 then (.raised, s)
  else match s.lists.rpoplpush queue (processingList queue) with
    | none => (if timeoutSeconds = 0 then .waits else .reserved none, s)
    | some (text, lists) =>
        let s := { s with lists := lists }
        if text = "" then (.reserved none, s)
        else match codec.loads text with
          | none => (.raised, s)
          | some payload => (.reserved (some payload), { s with receipts := s.receipts ++ [text] })

def acknowledge (receipt : String) : Bool × RedisQueues :=
  ((s.lists.lrem (processingList queue) receipt).1,
    { s with lists := (s.lists.lrem (processingList queue) receipt).2 })

/-- The loop of `recover_processing`. -/
def moveBack (queue : String) : Nat → RedisLists → Nat × RedisLists
  | 0, lists => (0, lists)
  | limit + 1, lists =>
      match lists.rpoplpush (processingList queue) queue with
      | none => (0, lists)
      | some (_, lists) => ((moveBack queue limit lists).1 + 1, (moveBack queue limit lists).2)

def recoverProcessing (limit : Int) : Nat × RedisQueues :=
  ((moveBack queue limit.toNat s.lists).1,
    { s with lists := (moveBack queue limit.toNat s.lists).2 })

def call : QueueCall P → QueueAnswer P × RedisQueues
  | .enqueue queue payload => (.done, s.enqueue codec queue payload)
  | .reserve queue timeoutSeconds => s.reserve codec queue timeoutSeconds
  | .acknowledge queue reservation =>
      (s.receipts[reservation]?).elim (.raised, s) fun receipt =>
        (.acknowledged (s.acknowledge queue receipt).1, (s.acknowledge queue receipt).2)
  | .recoverProcessing queue limit =>
      (.recovered (s.recoverProcessing queue limit).1, (s.recoverProcessing queue limit).2)

end RedisQueues

/-- One client with both stores, and the payloads that it has enqueued. -/
structure StorePair (P : Type) where
  memory : InMemoryQueues P := {}
  redis : RedisQueues := {}
  enqueued : List P := []

/-- A payload is enqueued once, and a reservation acknowledged that both stores have made. -/
def StorePair.ready [DecidableEq P] (s : StorePair P) : QueueCall P → Bool
  | .enqueue _ payload => payload ∉ s.enqueued
  | .acknowledge _ reservation =>
      decide (reservation < s.memory.delivered.length ∧ reservation < s.redis.receipts.length)
  | _ => true

def StorePair.after (codec : PayloadCodec P) (s : StorePair P) (a : QueueCall P) : StorePair P where
  memory := (s.memory.call a).2
  redis := (s.redis.call codec a).2
  enqueued := match a with
    | .enqueue _ payload => s.enqueued ++ [payload]
    | _ => s.enqueued

def queueMachine [DecidableEq P] (codec : PayloadCodec P) : Machine (StorePair P) (QueueCall P) where
  initial s := s = {}
  step s a := if s.ready a then some (s.after codec a) else none

/-- Both stores have the same payloads waiting and reserved, in the same order. -/
def StorePair.Alike (codec : PayloadCodec P) (names : List String) (s : StorePair P) : Prop :=
  ∀ queue ∈ names, (s.redis.lists queue).reverse = (s.memory.queues queue).map codec.dumps ∧
    (s.redis.lists (processingList queue)).reverse =
      (s.memory.processing queue).map fun entry => codec.dumps entry.2

/-- A reservation waits for a time unless there is a payload; no payload is acknowledged by an old
receipt when it is reserved anew; at most one payload is recovered, and one only into an empty
queue. -/
def StorePair.agrees [DecidableEq P] (s : StorePair P) : QueueCall P → Bool
  | .enqueue _ _ => true
  | .reserve queue timeoutSeconds =>
      decide (0 < timeoutSeconds ∨ timeoutSeconds = 0 ∧ s.memory.queues queue ≠ [])
  | .acknowledge queue reservation => (s.memory.processing queue).all fun entry =>
      decide (s.memory.delivered[reservation]? = some entry.2 → entry.1 = reservation)
  | .recoverProcessing queue limit =>
      let count := min limit.toNat (s.memory.processing queue).length
      decide (count = 0 ∨ count = 1 ∧ s.memory.queues queue = [])

theorem processingList_ne (queue : String) : processingList queue ≠ queue := by
  intro same
  have size := congrArg String.length same
  simp [processingList, String.length_append] at size

theorem processingList_inj {queue other : String} :
    processingList queue = processingList other ↔ queue = other :=
  String.append_left_inj _

namespace RedisLists
variable {lists : RedisLists} {source target item : String} {rest : List String}

theorem rpoplpush_nil (empty : lists source = []) : lists.rpoplpush source target = none := by
  simp [rpoplpush, empty]

theorem rpoplpush_cons (oldest : (lists source).reverse = item :: rest) :
    lists.rpoplpush source target =
      some (item, lpush (Function.update lists source rest.reverse) target item) := by
  have shape : lists source = rest.reverse ++ [item] := by
    rw [← List.reverse_reverse (lists source), oldest, List.reverse_cons]
  simp [rpoplpush, shape]

end RedisLists

namespace RedisQueues
variable {queue : String}

/-- Recovery moves the oldest reservations behind the queue, in their order. -/
theorem moveBack_spec (queue : String) (limit : Nat) (lists : RedisLists) :
    (moveBack queue limit lists).1 = min limit (lists (processingList queue)).length ∧
    ((moveBack queue limit lists).2 queue).reverse =
      (lists queue).reverse ++ (lists (processingList queue)).reverse.take limit ∧
    ((moveBack queue limit lists).2 (processingList queue)).reverse =
      (lists (processingList queue)).reverse.drop limit ∧
    ∀ name, name ≠ queue → name ≠ processingList queue →
      (moveBack queue limit lists).2 name = lists name := by
  have apart := processingList_ne queue
  induction limit generalizing lists with
  | zero => simp [moveBack]
  | succ limit ih =>
      unfold moveBack
      cases oldest : (lists (processingList queue)).reverse with
      | nil =>
          have empty := List.reverse_eq_nil_iff.mp oldest
          rw [RedisLists.rpoplpush_nil empty]
          simp [empty]
      | cons item rest =>
          rw [RedisLists.rpoplpush_cons oldest]
          let moved := RedisLists.lpush
            (Function.update lists (processingList queue) rest.reverse) queue item
          have front : moved queue = item :: lists queue := by
            simp [moved, RedisLists.lpush, Function.update_of_ne apart.symm]
          have back : moved (processingList queue) = rest.reverse := by
            simp [moved, RedisLists.lpush, Function.update_of_ne apart]
          have size := congrArg List.length oldest
          rw [List.length_reverse, List.length_cons] at size
          obtain ⟨count, waiting, left, others⟩ := ih moved
          rw [back, List.length_reverse] at count
          rw [front, back, List.reverse_cons, List.reverse_reverse] at waiting
          rw [back, List.reverse_reverse] at left
          refine ⟨?_, ?_, left, fun name other list => ?_⟩
          · dsimp only
            rw [count, size]
            omega
          · dsimp only
            rw [waiting, List.append_assoc]
            rfl
          · refine (others name other list).trans ?_
            exact (Function.update_of_ne other ..).trans (Function.update_of_ne list ..)

theorem reserve_nil {codec : PayloadCodec P} {s : RedisQueues} {timeoutSeconds : Int}
    (allowed : 0 ≤ timeoutSeconds) (empty : s.lists queue = []) :
    s.reserve codec queue timeoutSeconds =
      (if timeoutSeconds = 0 then .waits else .reserved none, s) := by
  simp [reserve, not_lt.mpr allowed, RedisLists.rpoplpush_nil empty]

theorem reserve_cons {codec : PayloadCodec P} {s : RedisQueues} {timeoutSeconds : Int} {payload : P}
    {rest : List String} (allowed : 0 ≤ timeoutSeconds)
    (oldest : (s.lists queue).reverse = codec.dumps payload :: rest) :
    s.reserve codec queue timeoutSeconds = (.reserved (some payload),
      { lists := RedisLists.lpush (Function.update s.lists queue rest.reverse)
          (processingList queue) (codec.dumps payload)
        receipts := s.receipts ++ [codec.dumps payload] }) := by
  simp [reserve, not_lt.mpr allowed, RedisLists.rpoplpush_cons oldest, codec.nonempty,
    codec.loads_dumps]

/-- A call uses its queue and the processing list alone. -/
theorem call_others (codec : PayloadCodec P) (s : RedisQueues) (a : QueueCall P) {name : String}
    (other : name ≠ a.queue) (list : name ≠ processingList a.queue) :
    (s.call codec a).2.lists name = s.lists name := by
  cases a with
  | enqueue queue payload => exact Function.update_of_ne other ..
  | reserve queue timeoutSeconds =>
      have moved {item : String} {lists : RedisLists}
          (taken : s.lists.rpoplpush queue (processingList queue) = some (item, lists)) :
          lists name = s.lists name := by
        obtain ⟨last, -, shape⟩ := Option.map_eq_some_iff.mp taken
        obtain ⟨rfl, rfl⟩ := Prod.mk.injEq .. ▸ shape
        exact (Function.update_of_ne list ..).trans (Function.update_of_ne other ..)
      unfold call reserve
      dsimp only
      split
      · rfl
      · split
        · rfl
        · rename_i text lists taken
          split
          · exact moved taken
          · split <;> exact moved taken
  | acknowledge queue reservation =>
      unfold call
      dsimp only
      cases s.receipts[reservation]? with
      | none => rfl
      | some receipt => exact Function.update_of_ne list ..
  | recoverProcessing queue limit =>
      exact (moveBack_spec queue limit.toNat s.lists).2.2.2 name other list

end RedisQueues

namespace InMemoryQueues
variable {s : InMemoryQueues P} {queue : String}

/-- Recovery puts the oldest reservations one by one to the front of the queue. -/
theorem foldl_putBack (pending : List (Nat × P)) (s : InMemoryQueues P) :
    pending.foldl (fun s entry => s.putBack queue entry) s =
      { s with
        queues := Function.update s.queues queue
          ((pending.map Prod.snd).reverse ++ s.queues queue)
        processing := Function.update s.processing queue
          ((s.processing queue).filter fun entry => entry.1 ∉ pending.map Prod.fst) } := by
  induction pending generalizing s with
  | nil => simp
  | cons entry rest ih =>
      rw [List.foldl_cons, ih]
      simp only [putBack, remove, Function.update_self, Function.update_idem, List.filter_filter,
        List.map_cons, List.reverse_cons, List.append_assoc, List.singleton_append]
      congr 3
      funext other
      by_cases same : other.1 = entry.1 <;> simp [same]

/-- A call uses its queue alone. -/
theorem call_others (s : InMemoryQueues P) (a : QueueCall P) {name : String}
    (other : name ≠ a.queue) : (s.call a).2.queues name = s.queues name ∧
      (s.call a).2.processing name = s.processing name := by
  cases a with
  | enqueue queue payload => exact ⟨Function.update_of_ne other .., rfl⟩
  | reserve queue timeoutSeconds =>
      unfold call reserve
      dsimp only
      split
      · exact ⟨rfl, rfl⟩
      · exact ⟨Function.update_of_ne other .., Function.update_of_ne other ..⟩
  | acknowledge queue reservation => exact ⟨rfl, Function.update_of_ne other ..⟩
  | recoverProcessing queue limit =>
      unfold call recoverProcessing
      dsimp only
      rw [foldl_putBack]
      exact ⟨Function.update_of_ne other .., Function.update_of_ne other ..⟩

end InMemoryQueues

namespace StorePair
variable {codec : PayloadCodec P} {names : List String} {s t : StorePair P} {queue : String}

/-- What keeps the stores together: payloads are distinct, and receipts tell what was delivered. -/
structure Paired (codec : PayloadCodec P) (names : List String) (s : StorePair P) : Prop where
  alike : s.Alike codec names
  distinct : ∀ queue ∈ names,
    (s.memory.queues queue ++ (s.memory.processing queue).map Prod.snd).Nodup
  known : ∀ queue ∈ names,
    ∀ payload ∈ s.memory.queues queue ++ (s.memory.processing queue).map Prod.snd,
      payload ∈ s.enqueued
  issued : ∀ queue ∈ names, ∀ entry ∈ s.memory.processing queue,
    s.memory.delivered[entry.1]? = some entry.2
  texts : s.redis.receipts = s.memory.delivered.map codec.dumps

/-- Whether the stores are alike after a call is decided at its queue. -/
theorem alike_after_iff [DecidableEq P] {a : QueueCall P} (alike : s.Alike codec names)
    (apart : ∀ queue ∈ names, ∀ other ∈ names, queue ≠ processingList other)
    (inside : a.queue ∈ names) : (s.after codec a).Alike codec names ↔
      ((s.redis.call codec a).2.lists a.queue).reverse =
          ((s.memory.call a).2.queues a.queue).map codec.dumps ∧
        ((s.redis.call codec a).2.lists (processingList a.queue)).reverse =
          ((s.memory.call a).2.processing a.queue).map fun entry => codec.dumps entry.2 := by
  constructor
  · intro after
    exact after a.queue inside
  · intro here queue member
    by_cases same : queue = a.queue
    · rw [same]
      exact here
    · obtain ⟨waiting, reserved⟩ := s.memory.call_others a same
      have elsewhere := s.redis.call_others codec a same (apart queue member a.queue inside)
      have list := s.redis.call_others codec a (apart a.queue inside queue member).symm
        fun equal => same (processingList_inj.mp equal)
      have old := alike queue member
      rw [← elsewhere, ← list, ← waiting, ← reserved] at old
      exact old

namespace Paired

theorem nodup_reserved (paired : s.Paired codec names) (member : queue ∈ names) :
    ((s.memory.processing queue).map Prod.snd).Nodup :=
  (List.nodup_append.mp (paired.distinct queue member)).2.1

/-- A receipt and a payload each determine the reservation. -/
theorem same_entry (paired : s.Paired codec names) (member : queue ∈ names) {a b : Nat × P}
    (first : a ∈ s.memory.processing queue) (second : b ∈ s.memory.processing queue) :
    (a.1 = b.1 → a = b) ∧ (a.2 = b.2 → a = b) := by
  have by_payload (same : a.2 = b.2) : a = b :=
    List.inj_on_of_nodup_map (paired.nodup_reserved member) first second same
  refine ⟨fun same => by_payload ?_, by_payload⟩
  have payload := paired.issued queue member a first
  rw [same, paired.issued queue member b second] at payload
  exact (Option.some.inj payload).symm

theorem nodup_receipts (paired : s.Paired codec names) (member : queue ∈ names) :
    ((s.memory.processing queue).map Prod.fst).Nodup :=
  (List.Nodup.of_map _ (paired.nodup_reserved member)).map_on fun _ first _ second same =>
    (paired.same_entry member first second).1 same

/-- The reservations that a recovery leaves. -/
theorem filter_pending (paired : s.Paired codec names) (member : queue ∈ names)
    {pending left : List (Nat × P)} (whole : s.memory.processing queue = pending ++ left) :
    ((s.memory.processing queue).filter fun entry => entry.1 ∉ pending.map Prod.fst) = left := by
  have receipts := paired.nodup_receipts member
  rw [whole, List.map_append, List.nodup_append] at receipts
  obtain ⟨-, -, disjoint⟩ := receipts
  rw [whole, List.filter_append, List.filter_eq_nil_iff.mpr, List.filter_eq_self.mpr,
    List.nil_append]
  · intro entry kept
    simp only [decide_eq_true_eq]
    intro taken
    exact disjoint entry.1 taken entry.1 (List.mem_map.mpr ⟨entry, kept, rfl⟩) rfl
  · intro entry taken
    simp only [decide_eq_true_eq, not_not]
    exact List.mem_map.mpr ⟨entry, taken, rfl⟩

end Paired

/-- Recovered payloads come to the front in the opposite order and behind the queue in theirs; these
are the same when there is none, or a single one alone. -/
theorem recovered_iff {waiting pending : List P} (distinct : (waiting ++ pending).Nodup) :
    pending.reverse ++ waiting = waiting ++ pending ↔
      pending.length = 0 ∨ pending.length = 1 ∧ waiting = [] := by
  obtain ⟨-, apart, disjoint⟩ := List.nodup_append.mp distinct
  constructor
  · intro same
    cases pending with
    | nil => exact .inl rfl
    | cons oldest rest =>
        refine .inr ?_
        cases waiting with
        | nil =>
            rw [List.append_nil, List.nil_append, List.reverse_cons] at same
            refine ⟨?_, rfl⟩
            cases newest : rest.reverse with
            | nil => simp [List.reverse_eq_nil_iff.mp newest]
            | cons last others =>
                rw [newest, List.cons_append, List.cons.injEq] at same
                have inside : last ∈ rest := by
                  rw [← List.mem_reverse, newest]
                  exact List.mem_cons_self
                exact absurd (same.1 ▸ inside) (List.nodup_cons.mp apart).1
        | cons next others =>
            have head : next ∈ oldest :: rest := by
              cases newest : (oldest :: rest).reverse with
              | nil => simp at newest
              | cons last before =>
                  rw [newest, List.cons_append, List.cons_append, List.cons.injEq] at same
                  rw [← List.mem_reverse, newest, same.1]
                  exact List.mem_cons_self
            exact absurd rfl (disjoint next List.mem_cons_self next head)
  · rintro (none | ⟨one, rfl⟩)
    · rw [List.eq_nil_of_length_eq_zero none]
      simp
    · obtain ⟨payload, rfl⟩ := List.length_eq_one_iff.mp one
      rfl

/-- The answers to a call and what it leaves at its queue. -/
def Matches (codec : PayloadCodec P) (s : StorePair P) (a : QueueCall P) : Prop :=
  (s.memory.call a).1 = (s.redis.call codec a).1 ∧
    ((s.redis.call codec a).2.lists a.queue).reverse =
      ((s.memory.call a).2.queues a.queue).map codec.dumps ∧
    ((s.redis.call codec a).2.lists (processingList a.queue)).reverse =
      ((s.memory.call a).2.processing a.queue).map fun entry => codec.dumps entry.2

namespace Paired

theorem enqueue_matches (paired : s.Paired codec names) (member : queue ∈ names) (payload : P) :
    s.Matches codec (.enqueue queue payload) := by
  obtain ⟨waiting, reserved⟩ := paired.alike queue member
  refine ⟨rfl, ?_, ?_⟩
  · simp [QueueCall.queue, RedisQueues.call, RedisQueues.enqueue, RedisLists.lpush,
      InMemoryQueues.call, InMemoryQueues.enqueue, waiting]
  · refine Eq.trans ?_ reserved
    exact congrArg List.reverse (Function.update_of_ne (processingList_ne queue) ..)

theorem reserve_matches (paired : s.Paired codec names) (member : queue ∈ names)
    (timeoutSeconds : Int) : s.Matches codec (.reserve queue timeoutSeconds) ↔
      0 < timeoutSeconds ∨ timeoutSeconds = 0 ∧ s.memory.queues queue ≠ [] := by
  obtain ⟨waiting, reserved⟩ := paired.alike queue member
  have apart := processingList_ne queue
  by_cases negative : timeoutSeconds < 0
  · have refused : (s.redis.call codec (.reserve queue timeoutSeconds)).1 = .raised := by
      simp [RedisQueues.call, RedisQueues.reserve, negative]
    constructor
    · rintro ⟨same, -⟩
      rw [refused] at same
      contradiction
    · rintro (positive | ⟨zero, -⟩) <;> omega
  have allowed := not_lt.mp negative
  cases oldest : s.memory.queues queue with
  | nil =>
      rw [oldest, List.map_nil, List.reverse_eq_nil_iff] at waiting
      have same : s.memory.call (.reserve queue timeoutSeconds) = (.reserved none, s.memory) := by
        simp [InMemoryQueues.call, InMemoryQueues.reserve, oldest]
      rw [Matches, RedisQueues.call, RedisQueues.reserve_nil allowed waiting, same]
      by_cases zero : timeoutSeconds = 0
      · simp [zero]
      · have positive : 0 < timeoutSeconds := by omega
        simp [zero, positive, QueueCall.queue, oldest, waiting, reserved]
  | cons payload rest =>
      rw [oldest, List.map_cons] at waiting
      have met : 0 < timeoutSeconds ∨ timeoutSeconds = 0 ∧ payload :: rest ≠ [] :=
        (lt_or_eq_of_le allowed).imp_right fun zero => ⟨zero.symm, List.cons_ne_nil payload rest⟩
      refine iff_of_true ?_ met
      rw [Matches, RedisQueues.call, RedisQueues.reserve_cons allowed waiting]
      refine ⟨?_, ?_, ?_⟩
      · simp [InMemoryQueues.call, InMemoryQueues.reserve, oldest]
      · simp [QueueCall.queue, InMemoryQueues.call, InMemoryQueues.reserve, oldest,
          RedisLists.lpush, Function.update_of_ne apart.symm]
      · simp [QueueCall.queue, InMemoryQueues.call, InMemoryQueues.reserve, oldest,
          RedisLists.lpush, Function.update_of_ne apart, reserved]

theorem acknowledge_matches (paired : s.Paired codec names) (member : queue ∈ names)
    {reservation : Nat} (made : reservation < s.memory.delivered.length) :
    s.Matches codec (.acknowledge queue reservation) ↔
      ∀ entry ∈ s.memory.processing queue,
        s.memory.delivered[reservation]? = some entry.2 → entry.1 = reservation := by
  obtain ⟨waiting, reserved⟩ := paired.alike queue member
  have apart := processingList_ne queue
  obtain ⟨payload, delivered⟩ : ∃ payload, s.memory.delivered[reservation]? = some payload :=
    ⟨_, List.getElem?_eq_getElem made⟩
  have receipt : s.redis.receipts[reservation]? = some (codec.dumps payload) := by
    rw [paired.texts, List.getElem?_map, delivered]
    rfl
  have known : codec.dumps payload ∈ s.redis.lists (processingList queue) ↔
      ∃ entry ∈ s.memory.processing queue, entry.2 = payload := by
    rw [← List.mem_reverse, reserved, List.mem_map]
    simp only [codec.injective.eq_iff]
  have texts : (s.redis.lists (processingList queue)).Nodup := by
    rw [← List.nodup_reverse, reserved, ← Function.comp_def, ← List.map_map]
    exact (paired.nodup_reserved member).map codec.injective
  rw [Matches, RedisQueues.call, receipt]
  simp only [delivered, Option.some.injEq, Option.elim_some, InMemoryQueues.call,
    InMemoryQueues.acknowledge, RedisQueues.acknowledge, RedisLists.lrem, QueueCall.queue,
    QueueAnswer.acknowledged.injEq, InMemoryQueues.remove, Function.update_self,
    Function.update_of_ne apart.symm]
  constructor
  · rintro ⟨answers, -⟩ entry inside same
    have removed := decide_eq_true (known.mpr ⟨entry, inside, same.symm⟩)
    rw [← answers, List.any_eq_true] at removed
    obtain ⟨mate, there, number⟩ := removed
    have number := of_decide_eq_true number
    have twin := paired.issued queue member mate there
    rw [number, delivered] at twin
    rw [(paired.same_entry member inside there).2 (same.symm.trans (Option.some.inj twin))]
    exact number
  · intro current
    have found (entry) (inside : entry ∈ s.memory.processing queue) :
        entry.1 = reservation ↔ entry.2 = payload := by
      refine ⟨fun number => ?_, fun same => current entry inside same.symm⟩
      have twin := paired.issued queue member entry inside
      rw [number, delivered] at twin
      exact (Option.some.inj twin).symm
    refine ⟨?_, waiting, ?_⟩
    · rw [Bool.eq_iff_iff, List.any_eq_true, decide_eq_true_eq, known]
      constructor
      · rintro ⟨entry, inside, number⟩
        exact ⟨entry, inside, (found entry inside).mp (of_decide_eq_true number)⟩
      · rintro ⟨entry, inside, same⟩
        exact ⟨entry, inside, decide_eq_true ((found entry inside).mpr same)⟩
    · rw [texts.erase_eq_filter, ← List.filter_reverse, reserved, List.filter_map]
      refine congrArg _ (List.filter_congr fun entry inside => ?_)
      have same : codec.dumps entry.2 = codec.dumps payload ↔ entry.1 = reservation :=
        codec.injective.eq_iff.trans (found entry inside).symm
      simp [bne, beq_eq_decide, same]

theorem recover_matches (paired : s.Paired codec names) (member : queue ∈ names) (limit : Int) :
    s.Matches codec (.recoverProcessing queue limit) ↔
      min limit.toNat (s.memory.processing queue).length = 0 ∨
        min limit.toNat (s.memory.processing queue).length = 1 ∧
          s.memory.queues queue = [] := by
  obtain ⟨waiting, reserved⟩ := paired.alike queue member
  obtain ⟨count, front, left, -⟩ :=
    RedisQueues.moveBack_spec queue limit.toNat s.redis.lists
  have size := congrArg List.length reserved
  rw [List.length_reverse, List.length_map] at size
  have whole := (List.take_append_drop limit.toNat (s.memory.processing queue)).symm
  have rest := paired.filter_pending member whole
  have distinct : (s.memory.queues queue ++
      ((s.memory.processing queue).take limit.toNat).map Prod.snd).Nodup := by
    refine (paired.distinct queue member).sublist (List.Sublist.append_left ?_ _)
    exact (List.take_sublist ..).map _
  have order := recovered_iff distinct
  rw [List.length_map, List.length_take] at order
  rw [← order, Matches]
  simp only [InMemoryQueues.call, InMemoryQueues.recoverProcessing, RedisQueues.call,
    RedisQueues.recoverProcessing, QueueCall.queue, InMemoryQueues.foldl_putBack,
    Function.update_self, QueueAnswer.recovered.injEq, List.length_take]
  rw [count, size, front, left, rest, waiting, reserved, List.map_drop]
  simp only [true_and, and_true]
  rw [← List.map_take, ← Function.comp_def codec.dumps Prod.snd, ← List.map_map,
    ← List.map_append, (List.map_injective_iff.mpr codec.injective).eq_iff]
  exact eq_comm

/-- A call answers the same in both stores and leaves the same at its queue exactly if it meets the
condition. -/
theorem matches_iff [DecidableEq P] (paired : s.Paired codec names) {a : QueueCall P}
    (inside : a.queue ∈ names) (ready : s.ready a = true) :
    s.Matches codec a ↔ s.agrees a = true := by
  cases a with
  | enqueue queue payload => exact iff_of_true (paired.enqueue_matches inside payload) rfl
  | reserve queue timeoutSeconds =>
      have member : queue ∈ names := inside
      rw [paired.reserve_matches member, agrees, decide_eq_true_eq]
  | acknowledge queue reservation =>
      have member : queue ∈ names := inside
      rw [paired.acknowledge_matches member
        (of_decide_eq_true ready).1, agrees, List.all_eq_true]
      simp only [decide_eq_true_eq]
  | recoverProcessing queue limit =>
      have member : queue ∈ names := inside
      rw [paired.recover_matches member, agrees, decide_eq_true_eq]

/-- The stores stay paired when the queue of the call does. -/
theorem of_queue [DecidableEq P] (paired : s.Paired codec names) {a : QueueCall P}
    (alike : (s.after codec a).Alike codec names)
    (distinct : ((s.memory.call a).2.queues a.queue ++
      ((s.memory.call a).2.processing a.queue).map Prod.snd).Nodup)
    (known : ∀ payload ∈ (s.memory.call a).2.queues a.queue ++
      ((s.memory.call a).2.processing a.queue).map Prod.snd,
        payload ∈ (s.after codec a).enqueued)
    (issued : ∀ entry ∈ (s.memory.call a).2.processing a.queue,
      (s.memory.call a).2.delivered[entry.1]? = some entry.2)
    (older : ∀ payload ∈ s.enqueued, payload ∈ (s.after codec a).enqueued)
    (prior : ∀ {i : Nat} {payload : P}, s.memory.delivered[i]? = some payload →
      (s.memory.call a).2.delivered[i]? = some payload)
    (texts : (s.redis.call codec a).2.receipts =
      (s.memory.call a).2.delivered.map codec.dumps) : (s.after codec a).Paired codec names := by
  refine ⟨alike, fun queue member => ?_, fun queue member payload => ?_,
    fun queue member entry => ?_, texts⟩ <;> by_cases same : queue = a.queue
  · exact same ▸ distinct
  · obtain ⟨waiting, reserved⟩ := s.memory.call_others a same
    have old := paired.distinct queue member
    rw [← waiting, ← reserved] at old
    exact old
  · exact same ▸ known payload
  · obtain ⟨waiting, reserved⟩ := s.memory.call_others a same
    have old := paired.known queue member payload
    rw [← waiting, ← reserved] at old
    exact fun stored => older payload (old stored)
  · exact same ▸ issued entry
  · obtain ⟨-, reserved⟩ := s.memory.call_others a same
    have old := paired.issued queue member entry
    rw [← reserved] at old
    exact fun stored => prior (old stored)

theorem step [DecidableEq P] (paired : s.Paired codec names) {a : QueueCall P}
    (inside : a.queue ∈ names) (ready : s.ready a = true)
    (alike : (s.after codec a).Alike codec names) (met : s.agrees a = true) :
    (s.after codec a).Paired codec names := by
  have distinct := paired.distinct a.queue inside
  have known := paired.known a.queue inside
  have issued := paired.issued a.queue inside
  cases a with
  | enqueue queue payload =>
      have fresh : payload ∉ s.enqueued := of_decide_eq_true ready
      refine paired.of_queue alike ?_ ?_ issued (fun _ => List.mem_append_left _) id paired.texts
      · simp only [InMemoryQueues.call, InMemoryQueues.enqueue, QueueCall.queue,
          Function.update_self]
        refine (List.Perm.nodup_iff ?_).mpr (List.nodup_cons.mpr ⟨fun old =>
          fresh (known payload old), distinct⟩)
        rw [List.append_assoc]
        exact List.perm_middle
      · intro other stored
        simp only [InMemoryQueues.call, InMemoryQueues.enqueue, QueueCall.queue,
          Function.update_self, List.mem_append, List.mem_singleton] at stored
        refine List.mem_append.mpr ?_
        rcases stored with (old | rfl) | old
        · exact .inl (known other (List.mem_append_left _ old))
        · exact .inr (List.mem_singleton_self _)
        · exact .inl (known other (List.mem_append_right _ old))
  | reserve queue timeoutSeconds =>
      have allowed : 0 ≤ timeoutSeconds := by
        rcases of_decide_eq_true met with positive | ⟨zero, -⟩ <;> omega
      obtain ⟨waiting, -⟩ := paired.alike queue inside
      simp only [QueueCall.queue] at distinct known issued
      cases oldest : s.memory.queues queue with
      | nil =>
          rw [oldest, List.map_nil, List.reverse_eq_nil_iff] at waiting
          have same : s.memory.call (.reserve queue timeoutSeconds) =
              (.reserved none, s.memory) := by
            simp [InMemoryQueues.call, InMemoryQueues.reserve, oldest]
          refine paired.of_queue alike ?_ ?_ ?_ (fun _ => id) ?_ ?_
          · rwa [same]
          · rwa [same]
          · rwa [same]
          · intro i payload
            rw [same]
            exact id
          · rw [same, RedisQueues.call, RedisQueues.reserve_nil allowed waiting]
            exact paired.texts
      | cons payload rest =>
          rw [oldest, List.map_cons] at waiting
          rw [oldest] at distinct known
          have moved : (rest ++ (s.memory.processing queue ++
              [(s.memory.delivered.length, payload)]).map Prod.snd).Perm
                (payload :: rest ++ (s.memory.processing queue).map Prod.snd) := by
            rw [List.map_append, ← List.append_assoc]
            exact List.perm_append_singleton payload _
          have same : s.memory.call (.reserve queue timeoutSeconds) = (.reserved (some payload),
              { queues := Function.update s.memory.queues queue rest
                processing := Function.update s.memory.processing queue
                  (s.memory.processing queue ++ [(s.memory.delivered.length, payload)])
                delivered := s.memory.delivered ++ [payload] }) := by
            simp [InMemoryQueues.call, InMemoryQueues.reserve, oldest]
          have prior {i : Nat} {old : P} (found : s.memory.delivered[i]? = some old) :
              (s.memory.delivered ++ [payload])[i]? = some old := by
            obtain ⟨inside, -⟩ := List.getElem?_eq_some_iff.mp found
            rw [List.getElem?_append_left inside, found]
          refine paired.of_queue alike ?_ ?_ ?_ (fun _ => id) ?_ ?_ <;>
            simp only [same, QueueCall.queue, Function.update_self]
          · exact moved.nodup_iff.mpr distinct
          · exact fun other stored => known other (moved.mem_iff.mp stored)
          · intro entry stored
            rcases List.mem_append.mp stored with old | new
            · exact prior (issued entry old)
            · rw [List.mem_singleton.mp new]
              exact List.getElem?_concat_length
          · exact prior
          · rw [RedisQueues.call, RedisQueues.reserve_cons allowed waiting, paired.texts]
            simp
  | acknowledge queue reservation =>
      have kept : ((s.memory.processing queue).filter
          fun entry => entry.1 ≠ reservation).Sublist (s.memory.processing queue) :=
        List.filter_sublist
      have texts : (s.redis.call codec (.acknowledge queue reservation)).2.receipts =
          s.redis.receipts := by
        rw [RedisQueues.call]
        cases s.redis.receipts[reservation]? <;> rfl
      refine paired.of_queue alike ?_ ?_ ?_ (fun _ => id) id (texts.trans paired.texts) <;>
        simp only [InMemoryQueues.call, InMemoryQueues.acknowledge, InMemoryQueues.remove,
          QueueCall.queue, Function.update_self]
      · exact distinct.sublist ((kept.map _).append_left _)
      · exact fun other stored => known other (((kept.map _).append_left _).subset stored)
      · exact fun entry stored => issued entry (kept.subset stored)
  | recoverProcessing queue limit =>
      simp only [QueueCall.queue] at inside distinct known issued
      have whole := (List.take_append_drop limit.toNat (s.memory.processing queue)).symm
      have moved : ((((s.memory.processing queue).take limit.toNat).map Prod.snd).reverse ++
          s.memory.queues queue ++ ((s.memory.processing queue).drop limit.toNat).map Prod.snd).Perm
            (s.memory.queues queue ++ (s.memory.processing queue).map Prod.snd) := by
        have parts := congrArg (List.map Prod.snd) whole
        rw [List.map_append] at parts
        rw [parts, ← List.append_assoc]
        refine List.Perm.append_right _ ?_
        exact ((List.reverse_perm _).append_right _).trans List.perm_append_comm
      refine paired.of_queue alike ?_ ?_ ?_ (fun _ => id) ?_ ?_ <;>
        simp only [InMemoryQueues.call, InMemoryQueues.recoverProcessing, QueueCall.queue,
          InMemoryQueues.foldl_putBack, Function.update_self,
          paired.filter_pending inside whole]
      · exact moved.nodup_iff.mpr distinct
      · exact fun other stored => known other (moved.mem_iff.mp stored)
      · exact fun entry stored => issued entry (List.mem_of_mem_drop stored)
      · exact id
      · exact paired.texts

end Paired

theorem paired_initial : Paired codec names ({} : StorePair P) :=
  ⟨fun _ _ => ⟨rfl, rfl⟩, fun _ _ => .nil, by simp, by simp, rfl⟩

end StorePair

/-- In every run whose calls meet the condition both stores have the same payloads waiting and
reserved in the same order, and a further call is answered alike and leaves them so exactly if it
meets the condition too. -/
theorem queues_equivalent [DecidableEq P] {codec : PayloadCodec P} {names : List String}
    (apart : ∀ queue ∈ names, ∀ other ∈ names, queue ≠ processingList other) {s : StorePair P}
    (reached : ((queueMachine codec).restrict fun s a =>
      a.queue ∈ names ∧ s.agrees a = true).Reachable s) :
    s.Alike codec names ∧ ∀ a t, (queueMachine codec).step s a = some t → a.queue ∈ names →
      (((s.memory.call a).1 = (s.redis.call codec a).1 ∧ t.Alike codec names) ↔
        s.agrees a = true) := by
  have decided {s t : StorePair P} {a : QueueCall P} (paired : s.Paired codec names)
      (inside : a.queue ∈ names) (stepped : (queueMachine codec).step s a = some t) :
      s.ready a = true ∧ t = s.after codec a ∧
        (((s.memory.call a).1 = (s.redis.call codec a).1 ∧ t.Alike codec names) ↔
          s.agrees a = true) := by
    simp only [queueMachine, Option.ite_none_right_eq_some, Option.some.injEq] at stepped
    obtain ⟨ready, rfl⟩ := stepped
    refine ⟨ready, rfl, ?_⟩
    rw [StorePair.alike_after_iff paired.alike apart inside, ← paired.matches_iff inside ready]
    exact Iff.rfl
  have paired : s.Paired codec names := by
    refine reached.invariant ?_ ?_
    · rintro s rfl
      exact StorePair.paired_initial
    · intro s a t paired stepped
      obtain ⟨⟨inside, met⟩, stepped⟩ := Machine.restrict_step.mp stepped
      obtain ⟨ready, rfl, matched⟩ := decided paired inside stepped
      exact paired.step inside ready (matched.mpr met).2 met
  exact ⟨paired.alike, fun a t stepped inside => (decided paired inside stepped).2.2⟩

/-- Payloads with a plain text as their event. -/
def eventCodec : PayloadCodec String where
  dumps event := "\x7b\"event\": \"" ++ event ++ "\"\x7d"
  loads text := some (String.ofList (text.toList.drop 11).dropLast.dropLast)
  loads_dumps event := by
    have shape : ("\x7b\"event\": \"" ++ event ++ "\"\x7d").toList.drop 11 =
        event.toList ++ ['"', '\x7d'] := by
      simp [String.toList_append]
    rw [shape]
    simp
  nonempty event := by
    intro empty
    have size := congrArg String.length empty
    simp [String.length_append] at size

/-- A reservation that is recovered alone and acknowledged by its new receipt. -/
def recoveredAlone : List (QueueCall String) :=
  [.enqueue "events" "arrived", .reserve "events" 2, .recoverProcessing "events" 100,
    .reserve "events" 2, .acknowledge "events" 1]

theorem queues_equivalent_recovered : ∃ s,
    (queueMachine eventCodec).run {} recoveredAlone = some s ∧ s.Alike eventCodec ["events"] := by
  have ran : ∃ s, (queueMachine eventCodec).run {} recoveredAlone = some s ∧
      s.memory.delivered = ["arrived", "arrived"] := by decide +kernel
  obtain ⟨s, ran, -⟩ := ran
  have met : (queueMachine eventCodec).MeetsAlong
      (fun s a => a.queue ∈ ["events"] ∧ s.agrees a = true) {} recoveredAlone := by
    have along : (queueMachine eventCodec).along
        (fun s a => decide (a.queue ∈ ["events"]) && s.agrees a) {} recoveredAlone = true := by
      decide +kernel
    refine Machine.MeetsAlong.mono (fun s a test => ?_) (Machine.meetsAlong_of_along along)
    rw [Bool.and_eq_true, decide_eq_true_eq] at test
    exact test
  have reached := Machine.reachable_restrict_of_run recoveredAlone rfl ran met
  exact ⟨s, ran, (queues_equivalent (by decide) reached).1⟩

/-- Two payloads that are recovered together come back in the opposite order in memory. -/
theorem recovered_in_reverse : ∃ s, (queueMachine eventCodec).run {}
    [.enqueue "events" "first", .enqueue "events" "second", .reserve "events" 2,
      .reserve "events" 2, .recoverProcessing "events" 100] = some s ∧
    (s.memory.call (.reserve "events" 2)).1 = .reserved (some "second") ∧
    (s.redis.call eventCodec (.reserve "events" 2)).1 = .reserved (some "first") := by
  decide +kernel

end MapGo.Runtime
