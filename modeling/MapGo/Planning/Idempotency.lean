import MapGo.Transition

/-! Planning requests under one idempotency key of one owner. The record is committed before the
plan is made and finished by the last commit of the handler; between them only a part of the handler
stands in its try block. -/
namespace MapGo.Planning

open Transition

inductive RecordStatus where
  | processing | succeeded | failed | expired
  deriving DecidableEq, Repr

/-- The row of the key in `idempotency_records`; owner and key are unique. -/
structure IdempotencyRecord (R F : Type) where
  id : Nat
  requestFingerprint : F
  status : RecordStatus := .processing
  responseJson : Option R := none
  expiresAt : Nat

/-- Where a call of `create_ai_plan` stands, with the record that it works on. -/
inductive PlanCallPhase where
  | reading
  | expiring (record : Nat)
  | deleting (record : Nat)
  | inserting
  /-- In the try block, before the plan. -/
  | trying (record : Nat)
  | executing (record : Nat)
  /-- Behind the try block. -/
  | finishing (record : Nat)
  /-- In the except block. -/
  | handling (record : Nat)
  | ended (created : Option Nat)
  deriving DecidableEq, Repr

structure PlanCall (F : Type) where
  /-- `now` of the handler -/
  now : Nat
  fingerprint : F
  phase : PlanCallPhase := .reading

structure RecordLifetime where
  createdAt : Nat
  expiresAt : Nat
  deriving DecidableEq

/-- The key, with the history of its records (by their ids), of the plans made for them, of the
responses given and of the records that refused a call. -/
structure PlanKey (R F : Type) where
  now : Nat := 0
  row : Option (IdempotencyRecord R F) := none
  calls : List (PlanCall F) := []
  records : List RecordLifetime := []
  executions : List (Nat × Nat) := []
  answers : List (Nat × R) := []
  refusals : List (IdempotencyRecord R F × F) := []

inductive PlanKeyAction (R F : Type) where
  | wait (seconds : Nat)
  | call (fingerprint : F)
  | read (call : Nat)
  /-- `record.status = "expired"` and its commit -/
  | expire (call : Nat)
  | delete (call : Nat)
  | insert (call : Nat)
  /-- `service.plan` starts. -/
  | execute (call : Nat)
  | planned (call : Nat)
  /-- The last commit. -/
  | finish (call : Nat) (response : R)
  /-- The commit of the except block. -/
  | handle (call : Nat)
  /-- An exception; a cancelled call ends with one that is no `Exception`. -/
  | raise (call : Nat) (cancelled : Bool)

namespace PlanCallPhase

/-- The record that the call has created. -/
def created : PlanCallPhase → Option Nat
  | .trying record | .executing record | .finishing record | .handling record => some record
  | .ended created => created
  | _ => none

/-- It is still at work on the record that it has created. -/
def atWork : PlanCallPhase → Option Nat
  | .trying record | .executing record | .finishing record | .handling record => some record
  | _ => none

/-- Where an exception takes the call. -/
def raised (phase : PlanCallPhase) (cancelled : Bool) : PlanCallPhase :=
  match phase with
  | .trying record | .executing record =>
      if cancelled then .ended (some record) else .handling record
  | phase => .ended phase.created

end PlanCallPhase

namespace PlanKey
variable {R F : Type}

def set (s : PlanKey R F) (index : Nat) (call : PlanCall F) (phase : PlanCallPhase) : PlanKey R F :=
  { s with calls := s.calls.set index { call with phase := phase } }

/-- An update of the row with an id; `none` is the `StaleDataError` of a row that is gone. -/
def update (s : PlanKey R F) (record : Nat)
    (change : IdempotencyRecord R F → IdempotencyRecord R F) : Option (PlanKey R F) :=
  match s.row with
  | some row => if row.id = record then some { s with row := some (change row) } else none
  | none => none

/-- The answer to a key that has a record. -/
def lookUp [DecidableEq F] (s : PlanKey R F) (index : Nat) (call : PlanCall F)
    (row : IdempotencyRecord R F) : PlanKey R F :=
  if row.expiresAt ≤ call.now then s.set index call (.expiring row.id)
  else if row.requestFingerprint ≠ call.fingerprint then
    { s.set index call (.ended none) with refusals := s.refusals ++ [(row, call.fingerprint)] }
  else match row.status, row.responseJson with
    | .succeeded, some response =>
        { s.set index call (.ended none) with answers := s.answers ++ [(row.id, response)] }
    | _, _ =>
        { s.set index call (.ended none) with refusals := s.refusals ++ [(row, call.fingerprint)] }

def step [DecidableEq F] (ttlSeconds : Nat) (s : PlanKey R F) :
    PlanKeyAction R F → Option (PlanKey R F)
  | .wait seconds => some { s with now := s.now + seconds }
  | .call fingerprint => some { s with calls := s.calls ++ [{ now := s.now, fingerprint }] }
  | .read index => (s.calls[index]?).bind fun call =>
      match call.phase with
      | .reading => match s.row with
        | none => some (s.set index call .inserting)
        | some row => some (s.lookUp index call row)
      | _ => none
  | .expire index => (s.calls[index]?).bind fun call =>
      match call.phase with
      | .expiring record =>
          match s.update record fun row => { row with status := .expired } with
          | some s => some (s.set index call (.deleting record))
          | none => some (s.set index call (.ended none))
      | _ => none
  | .delete index => (s.calls[index]?).bind fun call =>
      match call.phase with
      | .deleting record => some { s.set index call .inserting with
          row := s.row.filter fun row => row.id ≠ record }
      | _ => none
  | .insert index => (s.calls[index]?).bind fun call =>
      match call.phase, s.row with
      | .inserting, none => some { s.set index call (.trying s.records.length) with
          row := some
            { id := s.records.length
              requestFingerprint := call.fingerprint
              expiresAt := call.now + ttlSeconds }
          records := s.records ++ [⟨s.now, call.now + ttlSeconds⟩] }
      | .inserting, some _ => some (s.set index call (.ended none))
      | _, _ => none
  | .execute index => (s.calls[index]?).bind fun call =>
      match call.phase with
      | .trying record => some { s.set index call (.executing record) with
          executions := s.executions ++ [(record, s.now)] }
      | _ => none
  | .planned index => (s.calls[index]?).bind fun call =>
      match call.phase with
      | .executing record => some (s.set index call (.finishing record))
      | _ => none
  | .finish index response => (s.calls[index]?).bind fun call =>
      match call.phase with
      | .finishing record =>
          match s.update record fun row =>
              { row with status := .succeeded, responseJson := some response } with
          | some s => some { s.set index call (.ended (some record)) with
              answers := s.answers ++ [(record, response)] }
          | none => some (s.set index call (.ended (some record)))
      | _ => none
  | .handle index => (s.calls[index]?).bind fun call =>
      match call.phase with
      | .handling record =>
          match s.update record fun row => { row with status := .failed } with
          | some s => some (s.set index call (.ended (some record)))
          | none => some (s.set index call (.ended (some record)))
      | _ => none
  | .raise index cancelled => (s.calls[index]?).bind fun call =>
      match call.phase with
      | .ended _ => none
      | phase => some (s.set index call (phase.raised cancelled))

def machine (R F : Type) [DecidableEq F] (ttlSeconds : Nat) :
    Machine (PlanKey R F) (PlanKeyAction R F) where
  initial s := s = {}
  step := step ttlSeconds

/-- The plans that were started within the lifetime of a record. -/
def executionsWithin (s : PlanKey R F) (record : RecordLifetime) : List (Nat × Nat) :=
  s.executions.filter fun execution =>
    record.createdAt ≤ execution.2 ∧ execution.2 < record.expiresAt

/-- At most one plan in the lifetime of a record, one response for it, no refusal once it has one,
and no call that leaves it in processing. -/
structure Idempotent (s : PlanKey R F) : Prop where
  once : ∀ record ∈ s.records, (s.executionsWithin record).length ≤ 1
  same : ∀ first ∈ s.answers, ∀ second ∈ s.answers, first.1 = second.1 → first.2 = second.2
  replayed : ∀ refusal ∈ s.refusals, refusal.1.requestFingerprint = refusal.2 →
    refusal.1.status ≠ .succeeded
  settled : ∀ call ∈ s.calls, ∀ record ∈ s.row, call.phase = .ended (some record.id) →
    record.status ≠ .processing

/-- The exception would end the call and leave its record in processing. -/
def abandons (s : PlanKey R F) (index : Nat) (cancelled : Bool) : Bool :=
  (s.calls[index]?).any fun call => s.row.any fun row =>
    decide (call.phase.atWork = some row.id ∧ row.status = .processing ∧
      call.phase.raised cancelled = .ended (some row.id))

/-- A plan starts before its record expires, and exceptions fall into the try block, or find nothing
to leave. -/
def orderly (s : PlanKey R F) : PlanKeyAction R F → Bool
  | .execute index => (s.calls[index]?).all fun call =>
      (call.phase.created.bind fun record => s.records[record]?).all fun record =>
        s.now < record.expiresAt
  | .raise index cancelled => !s.abandons index cancelled
  | _ => true

variable {ttlSeconds : Nat} {s t : PlanKey R F}

/-- The records follow one another, and only the stored one may be alive. -/
structure Dated (s : PlanKey R F) : Prop where
  ordered : s.records.Pairwise fun first second => first.expiresAt ≤ second.createdAt
  past : ∀ record ∈ s.records, record.createdAt ≤ s.now
  alive : ∀ (id : Nat) (record : RecordLifetime), s.records[id]? = some record →
    s.now < record.expiresAt → ∃ row, s.row = some row ∧ row.id = id
  stored : ∀ row, s.row = some row →
    ∃ record, s.records[row.id]? = some record ∧ record.expiresAt = row.expiresAt

/-- What holds of a call at every point of its handler. -/
structure CallKept (s : PlanKey R F) (call : PlanCall F) : Prop where
  called : call.now ≤ s.now
  stale : ∀ id, call.phase = .expiring id ∨ call.phase = .deleting id →
    ∃ record, s.records[id]? = some record ∧ record.expiresAt ≤ s.now
  created : ∀ id, call.phase.created = some id → id < s.records.length
  fresh : ∀ id, call.phase = .trying id → ∀ execution ∈ s.executions, execution.1 ≠ id
  silent : ∀ id, call.phase.atWork = some id → ∀ answer ∈ s.answers, answer.1 ≠ id
  blank : ∀ row, s.row = some row → call.phase.atWork = some row.id → row.responseJson = none
  settled : ∀ row, s.row = some row → call.phase = .ended (some row.id) →
    row.status ≠ .processing

structure Kept (s : PlanKey R F) : Prop where
  dated : s.Dated
  calls : ∀ call ∈ s.calls, s.CallKept call
  apart : ∀ (i j : Nat) (a b : PlanCall F) (id : Nat), s.calls[i]? = some a →
    s.calls[j]? = some b → a.phase.created = some id → b.phase.created = some id → i = j
  each : (s.executions.map Prod.fst).Nodup
  within : ∀ execution ∈ s.executions, ∃ record, s.records[execution.1]? = some record ∧
    record.createdAt ≤ execution.2 ∧ execution.2 < record.expiresAt
  same : ∀ first ∈ s.answers, ∀ second ∈ s.answers, first.1 = second.1 → first.2 = second.2
  answered : ∀ answer ∈ s.answers, answer.1 < s.records.length ∧
    ∀ row, s.row = some row → row.id = answer.1 → row.responseJson = some answer.2
  complete : ∀ row, s.row = some row → row.status = .succeeded → row.responseJson.isSome = true
  replayed : ∀ refusal ∈ s.refusals, refusal.1.requestFingerprint = refusal.2 →
    refusal.1.status ≠ .succeeded

theorem atWork_created {phase : PlanCallPhase} {id : Nat} (works : phase.atWork = some id) :
    phase.created = some id := by
  cases phase <;> first | exact works | contradiction

/-- Two plans in the lifetime of a record would be two plans of that record. -/
theorem Kept.once (kept : s.Kept) {record : RecordLifetime} (member : record ∈ s.records) :
    (s.executionsWithin record).length ≤ 1 := by
  obtain ⟨id, found⟩ := List.getElem?_of_mem member
  have own : ∀ execution ∈ s.executionsWithin record, execution.1 = id := by
    intro execution inside
    obtain ⟨held, period⟩ := List.mem_filter.mp inside
    obtain ⟨begun, running⟩ := of_decide_eq_true period
    obtain ⟨other, stored, since, ends⟩ := kept.within execution held
    obtain ⟨first, rfl⟩ := List.getElem?_eq_some_iff.mp found
    obtain ⟨second, rfl⟩ := List.getElem?_eq_some_iff.mp stored
    have pairs := List.pairwise_iff_getElem.mp kept.dated.ordered
    rcases Nat.lt_trichotomy execution.1 id with before | equal | behind
    · have gap := pairs _ _ second first before
      omega
    · exact equal
    · have gap := pairs _ _ first second behind
      omega
  have distinct : ((s.executionsWithin record).map Prod.fst).Nodup :=
    kept.each.sublist (List.filter_sublist.map _)
  have constant := List.eq_replicate_of_mem (l := (s.executionsWithin record).map Prod.fst)
    (a := id) (by
      intro other inside
      obtain ⟨execution, within, rfl⟩ := List.mem_map.mp inside
      exact own execution within)
  rw [constant, List.length_map] at distinct
  exact List.nodup_replicate.mp distinct

theorem Kept.idempotent (kept : s.Kept) : s.Idempotent where
  once _ member := kept.once member
  same := kept.same
  replayed := kept.replayed
  settled call member record stored := (kept.calls call member).settled record stored

/-- A call that moves on creates nothing and works on nothing new. -/
structure Moves (s : PlanKey R F) (call : PlanCall F) (phase : PlanCallPhase) : Prop where
  stale : ∀ id, phase = .expiring id ∨ phase = .deleting id →
    ∃ record, s.records[id]? = some record ∧ record.expiresAt ≤ s.now
  created : ∀ id, phase.created = some id → call.phase.created = some id
  fresh : ∀ id, phase ≠ .trying id
  atWork : ∀ id, phase.atWork = some id → call.phase.atWork = some id
  settled : ∀ row, s.row = some row → phase = .ended (some row.id) → row.status ≠ .processing

/-- What a call keeps depends on the clock, the records, the row and the histories. -/
theorem CallKept.moves {call : PlanCall F} {phase : PlanCallPhase} (kept : s.CallKept call)
    (moves : s.Moves call phase) : s.CallKept { call with phase := phase } where
  called := kept.called
  stale := moves.stale
  created id made := kept.created id (moves.created id made)
  fresh id tries := absurd tries (moves.fresh id)
  silent id works := kept.silent id (moves.atWork id works)
  blank row stored works := kept.blank row stored (moves.atWork row.id works)
  settled := moves.settled

theorem mem_set {calls : List (PlanCall F)} {index : Nat} {new call : PlanCall F}
    (member : call ∈ calls.set index new) : call ∈ calls ∨ call = new :=
  List.mem_or_eq_of_mem_set member

/-- Calls that create no more than before stay apart. -/
theorem apart_set {calls : List (PlanCall F)} {index : Nat} {call new : PlanCall F}
    (found : calls[index]? = some call)
    (apart : ∀ (i j : Nat) (a b : PlanCall F) (id : Nat), calls[i]? = some a →
      calls[j]? = some b → a.phase.created = some id → b.phase.created = some id → i = j)
    (created : ∀ id, new.phase.created = some id → call.phase.created = some id) :
    ∀ (i j : Nat) (a b : PlanCall F) (id : Nat), (calls.set index new)[i]? = some a →
      (calls.set index new)[j]? = some b → a.phase.created = some id →
        b.phase.created = some id → i = j := by
  have old {i : Nat} {a : PlanCall F} {id : Nat} (at_index : (calls.set index new)[i]? = some a)
      (made : a.phase.created = some id) :
      ∃ b, calls[i]? = some b ∧ b.phase.created = some id := by
    by_cases here : index = i
    · subst here
      obtain ⟨inside, -⟩ := List.getElem?_eq_some_iff.mp found
      rw [List.getElem?_set_self inside] at at_index
      obtain rfl := Option.some.inj at_index
      exact ⟨call, found, created id made⟩
    · rw [List.getElem?_set_ne here] at at_index
      exact ⟨a, at_index, made⟩
  intro i j a b id at_i at_j made_a made_b
  obtain ⟨a', found_a, made_a'⟩ := old at_i made_a
  obtain ⟨b', found_b, made_b'⟩ := old at_j made_b
  exact apart i j a' b' id found_a found_b made_a' made_b'

theorem Kept.set (kept : s.Kept) {index : Nat} {call : PlanCall F} {phase : PlanCallPhase}
    (found : s.calls[index]? = some call) (moves : s.Moves call phase) :
    (s.set index call phase).Kept where
  dated := ⟨kept.dated.ordered, kept.dated.past, kept.dated.alive, kept.dated.stored⟩
  calls other member := by
    have held : s.CallKept other := by
      obtain before | rfl := mem_set member
      · exact kept.calls other before
      · exact (kept.calls call (List.mem_of_getElem? found)).moves moves
    exact ⟨held.called, held.stale, held.created, held.fresh, held.silent, held.blank, held.settled⟩
  apart := apart_set found kept.apart moves.created
  each := kept.each
  within := kept.within
  same := kept.same
  answered := kept.answered
  complete := kept.complete
  replayed := kept.replayed

/-- A call ends that was not at work, or leaves nothing in processing. -/
theorem moves_ended {call : PlanCall F} {created : Option Nat}
    (made : ∀ id, created = some id → call.phase.created = some id)
    (settled : ∀ row, s.row = some row → created = some row.id → row.status ≠ .processing) :
    s.Moves call (.ended created) where
  stale := nofun
  created := made
  fresh := nofun
  atWork := nofun
  settled row stored ended := settled row stored (PlanCallPhase.ended.inj ended)

theorem update_some {record : Nat} {change : IdempotencyRecord R F → IdempotencyRecord R F}
    (updated : s.update record change = some t) :
    ∃ row, s.row = some row ∧ row.id = record ∧ t = { s with row := some (change row) } := by
  unfold update at updated
  split at updated
  next row stored =>
    split at updated
    next same => exact ⟨row, stored, same, (Option.some.inj updated).symm⟩
    next => contradiction
  next => contradiction

theorem update_none {record : Nat} {change : IdempotencyRecord R F → IdempotencyRecord R F}
    (updated : s.update record change = none) {row : IdempotencyRecord R F}
    (stored : s.row = some row) : row.id ≠ record := by
  intro same
  simp [update, stored, same] at updated

/-- The row of a record changes its status, with its response as it is. -/
theorem Kept.mark (kept : s.Kept) {record : Nat} {status : RecordStatus}
    (other : status ≠ .processing) (unfinished : status ≠ .succeeded)
    (updated : s.update record (fun row => { row with status := status }) = some t) : t.Kept := by
  obtain ⟨row, stored, same, rfl⟩ := update_some updated
  refine ⟨⟨kept.dated.ordered, kept.dated.past, ?_, ?_⟩, ?_, kept.apart, kept.each, kept.within,
    kept.same, ?_, ?_, kept.replayed⟩
  · intro id record held alive
    obtain ⟨row', stored', named⟩ := kept.dated.alive id record held alive
    obtain rfl := Option.some.inj (stored.symm.trans stored')
    exact ⟨_, rfl, named⟩
  · rintro row' ⟨⟩
    exact kept.dated.stored row stored
  · intro call member
    have held := kept.calls call member
    refine ⟨held.called, held.stale, held.created, held.fresh, held.silent, ?_, ?_⟩
    · rintro row' ⟨⟩ works
      exact held.blank row stored works
    · rintro row' ⟨⟩ -
      exact other
  · intro answer member
    refine ⟨(kept.answered answer member).1, ?_⟩
    rintro row' ⟨⟩ named
    exact (kept.answered answer member).2 row stored named
  · rintro row' ⟨⟩ succeeded
    exact absurd succeeded unfinished

theorem Kept.start : ({} : PlanKey R F).Kept where
  dated := ⟨List.Pairwise.nil, nofun, nofun, nofun⟩
  calls := nofun
  apart := nofun
  each := List.nodup_nil
  within := nofun
  same := nofun
  answered := nofun
  complete := nofun
  replayed := nofun

theorem Kept.wait (kept : s.Kept) (seconds : Nat) : { s with now := s.now + seconds }.Kept where
  dated :=
    { ordered := kept.dated.ordered
      past := fun record member => (kept.dated.past record member).trans (Nat.le_add_right ..)
      alive := fun id record held alive =>
        kept.dated.alive id record held (Nat.lt_of_le_of_lt (Nat.le_add_right ..) alive)
      stored := kept.dated.stored }
  calls call member := by
    have held := kept.calls call member
    refine ⟨held.called.trans (Nat.le_add_right ..), fun id marks => ?_, held.created,
      held.fresh, held.silent, held.blank, held.settled⟩
    obtain ⟨record, stored, late⟩ := held.stale id marks
    exact ⟨record, stored, late.trans (Nat.le_add_right ..)⟩
  apart := kept.apart
  each := kept.each
  within := kept.within
  same := kept.same
  answered := kept.answered
  complete := kept.complete
  replayed := kept.replayed

theorem Kept.call (kept : s.Kept) (fingerprint : F) :
    Kept { s with calls := s.calls ++ [⟨s.now, fingerprint, .reading⟩] } where
  dated := ⟨kept.dated.ordered, kept.dated.past, kept.dated.alive, kept.dated.stored⟩
  calls call member := by
    obtain before | new := List.mem_append.mp member
    · have held := kept.calls call before
      exact ⟨held.called, held.stale, held.created, held.fresh, held.silent, held.blank,
        held.settled⟩
    · obtain rfl := List.mem_singleton.mp new
      exact ⟨Nat.le_refl _, nofun, nofun, nofun, nofun, nofun, nofun⟩
  apart i j a b id at_i at_j made_a made_b := by
    have old {i : Nat} {a : PlanCall F}
        (at_index : (s.calls ++ [⟨s.now, fingerprint, .reading⟩])[i]? = some a)
        (made : a.phase.created = some id) : s.calls[i]? = some a := by
      rw [List.getElem?_append] at at_index
      split at at_index
      · exact at_index
      · obtain rfl := List.mem_singleton.mp (List.mem_of_getElem? at_index)
        contradiction
    exact kept.apart i j a b id (old at_i made_a) (old at_j made_b) made_a made_b
  each := kept.each
  within := kept.within
  same := kept.same
  answered := kept.answered
  complete := kept.complete
  replayed := kept.replayed

/-- A refusal by a record that has no response for the request. -/
theorem Kept.refuse (kept : s.Kept) {row : IdempotencyRecord R F} {fingerprint : F}
    (refused : row.requestFingerprint = fingerprint → row.status ≠ .succeeded) :
    { s with refusals := s.refusals ++ [(row, fingerprint)] }.Kept where
  dated := ⟨kept.dated.ordered, kept.dated.past, kept.dated.alive, kept.dated.stored⟩
  calls call member := by
    have held := kept.calls call member
    exact ⟨held.called, held.stale, held.created, held.fresh, held.silent, held.blank, held.settled⟩
  apart := kept.apart
  each := kept.each
  within := kept.within
  same := kept.same
  answered := kept.answered
  complete := kept.complete
  replayed :=
    List.forall_mem_append.mpr ⟨kept.replayed, List.forall_mem_singleton.mpr refused⟩

/-- The stored response is given once more. -/
theorem Kept.replay (kept : s.Kept) {row : IdempotencyRecord R F} {response : R}
    (stored : s.row = some row) (answers : row.responseJson = some response) :
    { s with answers := s.answers ++ [(row.id, response)] }.Kept where
  dated := ⟨kept.dated.ordered, kept.dated.past, kept.dated.alive, kept.dated.stored⟩
  calls call member := by
    have held := kept.calls call member
    refine ⟨held.called, held.stale, held.created, held.fresh, fun id works => ?_, held.blank,
      held.settled⟩
    refine List.forall_mem_append.mpr ⟨held.silent id works, List.forall_mem_singleton.mpr ?_⟩
    rintro rfl
    rw [held.blank row stored works] at answers
    contradiction
  apart := kept.apart
  each := kept.each
  within := kept.within
  same := by
    have agrees : ∀ answer ∈ s.answers, answer.1 = row.id → answer.2 = response := by
      intro answer member named
      have given := (kept.answered answer member).2 row stored named.symm
      exact Option.some.inj (given.symm.trans answers)
    intro first first_in second second_in named
    obtain old | new := List.mem_append.mp first_in <;>
      obtain old' | new' := List.mem_append.mp second_in
    · exact kept.same first old second old' named
    · obtain rfl := List.mem_singleton.mp new'
      exact agrees first old named
    · obtain rfl := List.mem_singleton.mp new
      exact (agrees second old' named.symm).symm
    · obtain rfl := List.mem_singleton.mp new
      obtain rfl := List.mem_singleton.mp new'
      rfl
  answered := by
    obtain ⟨record, held, -⟩ := kept.dated.stored row stored
    obtain ⟨inside, -⟩ := List.getElem?_eq_some_iff.mp held
    refine List.forall_mem_append.mpr ⟨kept.answered, List.forall_mem_singleton.mpr ⟨inside, ?_⟩⟩
    intro row' stored' _
    obtain rfl := Option.some.inj (stored.symm.trans stored')
    exact answers
  complete := kept.complete
  replayed := kept.replayed

/-- A call goes on with its record. -/
theorem moves_of_atWork {call : PlanCall F} {phase : PlanCallPhase} {record : Nat}
    (works : call.phase.atWork = some record) (goes : phase.atWork = some record)
    (begun : ∀ id, phase ≠ .trying id) : s.Moves call phase where
  stale id marks := by
    rcases marks with rfl | rfl <;> contradiction
  created id made := by
    rw [atWork_created goes] at made
    rw [← made]
    exact atWork_created works
  fresh := begun
  atWork id same := by
    rw [goes] at same
    rw [← same]
    exact works
  settled row _ ended := by
    rw [ended] at goes
    contradiction

/-- The other calls have not created the record of this one. -/
theorem Kept.alone (kept : s.Kept) {index record : Nat} {call new other : PlanCall F}
    (found : s.calls[index]? = some call) (made : call.phase.created = some record)
    (member : other ∈ s.calls.set index new) :
    other = new ∨ (other ∈ s.calls ∧ other.phase.created ≠ some record) := by
  obtain ⟨i, held⟩ := List.getElem?_of_mem member
  by_cases here : index = i
  · subst here
    obtain ⟨inside, -⟩ := List.getElem?_eq_some_iff.mp found
    rw [List.getElem?_set_self inside] at held
    exact .inl (Option.some.inj held).symm
  · rw [List.getElem?_set_ne here] at held
    refine .inr ⟨List.mem_of_getElem? held, fun created => here ?_⟩
    exact kept.apart index i call other record found held made created

section steps
variable [DecidableEq F]

theorem Kept.read (kept : s.Kept) {index : Nat}
    (stepped : s.step ttlSeconds (.read index) = some t) : t.Kept := by
  obtain ⟨call, found, stepped⟩ := Option.bind_eq_some_iff.mp stepped
  have held := kept.calls call (List.mem_of_getElem? found)
  have ends : s.Moves call (.ended none) := moves_ended nofun nofun
  split at stepped
  next reading =>
    split at stepped
    · cases stepped
      exact kept.set found ⟨nofun, nofun, nofun, nofun, nofun⟩
    next row stored =>
      cases stepped
      unfold lookUp
      split
      next late =>
        refine kept.set found ⟨?_, nofun, nofun, nofun, nofun⟩
        rintro id (marks | marks)
        · obtain rfl := PlanCallPhase.expiring.inj marks
          obtain ⟨record, known, same⟩ := kept.dated.stored row stored
          exact ⟨record, known, same ▸ late.trans held.called⟩
        · contradiction
      next =>
        split
        next other => exact (kept.set found ends).refuse fun same => absurd same other
        next =>
          split
          next response succeeded answers => exact (kept.set found ends).replay stored answers
          next unanswered =>
            refine (kept.set found ends).refuse fun _ succeeded => ?_
            obtain ⟨response, answers⟩ :=
              Option.isSome_iff_exists.mp (kept.complete row stored succeeded)
            exact unanswered response succeeded answers
  next => contradiction

theorem Kept.expire (kept : s.Kept) {index : Nat}
    (stepped : s.step ttlSeconds (.expire index) = some t) : t.Kept := by
  obtain ⟨call, found, stepped⟩ := Option.bind_eq_some_iff.mp stepped
  have held := kept.calls call (List.mem_of_getElem? found)
  split at stepped
  next record marks =>
    split at stepped
    next marked updated =>
      cases stepped
      have after := kept.mark (by decide) (by decide) updated
      obtain ⟨row, stored, same, rfl⟩ := update_some updated
      refine after.set found ⟨?_, nofun, nofun, nofun, nofun⟩
      rintro id (marks' | marks')
      · contradiction
      · obtain rfl := PlanCallPhase.deleting.inj marks'
        exact held.stale record (.inl marks)
    next =>
      cases stepped
      exact kept.set found (moves_ended nofun nofun)
  next => contradiction

theorem Kept.delete (kept : s.Kept) {index : Nat}
    (stepped : s.step ttlSeconds (.delete index) = some t) : t.Kept := by
  obtain ⟨call, found, stepped⟩ := Option.bind_eq_some_iff.mp stepped
  have held := kept.calls call (List.mem_of_getElem? found)
  split at stepped
  next record deletes =>
    cases stepped
    have moves : s.Moves call .inserting := ⟨nofun, nofun, nofun, nofun, nofun⟩
    have moved := kept.set found moves
    have stays {row : IdempotencyRecord R F}
        (left : s.row.filter (fun row => row.id ≠ record) = some row) : s.row = some row :=
      (Option.filter_eq_some_iff.mp left).1
    refine ⟨⟨moved.dated.ordered, moved.dated.past, ?_, fun row left =>
      moved.dated.stored row (stays left)⟩, ?_, moved.apart, moved.each, moved.within, moved.same,
      ?_, fun row left => moved.complete row (stays left), moved.replayed⟩
    · intro id lifetime known alive
      have alive : s.now < lifetime.expiresAt := alive
      have listed : s.records[id]? = some lifetime := known
      obtain ⟨row, stored, named⟩ := kept.dated.alive id lifetime known alive
      refine ⟨row, Option.filter_eq_some_iff.mpr ⟨stored, ?_⟩, named⟩
      have other : row.id ≠ record := by
        rintro rfl
        obtain ⟨lifetime', known', late⟩ := held.stale row.id (.inr deletes)
        rw [named, listed] at known'
        obtain rfl := Option.some.inj known'
        omega
      simpa using other
    · intro other member
      have each := moved.calls other member
      exact ⟨each.called, each.stale, each.created, each.fresh, each.silent,
        fun row left => each.blank row (stays left), fun row left => each.settled row (stays left)⟩
    · intro answer member
      exact ⟨(moved.answered answer member).1,
        fun row left => (moved.answered answer member).2 row (stays left)⟩
  next => contradiction

theorem Kept.planned (kept : s.Kept) {index : Nat}
    (stepped : s.step ttlSeconds (.planned index) = some t) : t.Kept := by
  obtain ⟨call, found, stepped⟩ := Option.bind_eq_some_iff.mp stepped
  split at stepped
  next record executes =>
    cases stepped
    exact kept.set found (moves_of_atWork (by rw [executes]; rfl) rfl nofun)
  next => contradiction

theorem Kept.handle (kept : s.Kept) {index : Nat}
    (stepped : s.step ttlSeconds (.handle index) = some t) : t.Kept := by
  obtain ⟨call, found, stepped⟩ := Option.bind_eq_some_iff.mp stepped
  split at stepped
  next record handles =>
    have made : ∀ id, some record = some id → call.phase.created = some id := by
      rintro id ⟨⟩
      rw [handles]
      rfl
    split at stepped
    next marked updated =>
      cases stepped
      have after := kept.mark (by decide) (by decide) updated
      obtain ⟨row, stored, same, rfl⟩ := update_some updated
      refine after.set found (moves_ended made ?_)
      rintro row' ⟨⟩ -
      exact nofun
    next missing =>
      cases stepped
      refine kept.set found (moves_ended made fun row stored same => ?_)
      exact absurd (Option.some.inj same).symm (update_none missing stored)
  next => contradiction

/-- An exception ends the call or takes it to the except block. -/
theorem raised_cases (phase : PlanCallPhase) (cancelled : Bool) :
    phase.raised cancelled = .ended phase.created ∨
      ∃ record, phase.atWork = some record ∧ phase.raised cancelled = .handling record := by
  cases phase with
  | trying record | executing record =>
      cases cancelled
      · exact .inr ⟨record, rfl, rfl⟩
      · exact .inl rfl
  | _ => exact .inl rfl

theorem Kept.raise (kept : s.Kept) {index : Nat} {cancelled : Bool}
    (harmless : s.abandons index cancelled = false)
    (stepped : s.step ttlSeconds (.raise index cancelled) = some t) : t.Kept := by
  obtain ⟨call, found, stepped⟩ := Option.bind_eq_some_iff.mp stepped
  split at stepped
  next => contradiction
  next running =>
    cases stepped
    apply kept.set found
    obtain ends | ⟨record, works, handles⟩ := raised_cases call.phase cancelled
    · rw [ends]
      apply moves_ended fun _ made => made
      intro row stored made processing
      have works : call.phase.atWork = some row.id := by
        cases phase : call.phase <;> rw [phase] at made
        case ended created => exact absurd phase (running created)
        all_goals exact made
      have leaves : s.abandons index cancelled = true := by
        rw [abandons, found, stored]
        exact decide_eq_true ⟨works, processing, ends.trans (congrArg _ made)⟩
      rw [harmless] at leaves
      contradiction
    · rw [handles]
      exact moves_of_atWork works rfl nofun

theorem Kept.insert (kept : s.Kept) {index : Nat}
    (stepped : s.step ttlSeconds (.insert index) = some t) : t.Kept := by
  obtain ⟨call, found, stepped⟩ := Option.bind_eq_some_iff.mp stepped
  have held := kept.calls call (List.mem_of_getElem? found)
  split at stepped
  next inserts free =>
    cases stepped
    have expired : ∀ record ∈ s.records, record.expiresAt ≤ s.now := by
      intro record member
      obtain ⟨id, known⟩ := List.getElem?_of_mem member
      by_contra alive
      obtain ⟨row, stored, -⟩ := kept.dated.alive id record known (Nat.lt_of_not_le alive)
      rw [free] at stored
      contradiction
    have grows {id : Nat} {record : RecordLifetime} (known : s.records[id]? = some record) :
        (s.records ++ [⟨s.now, call.now + ttlSeconds⟩])[id]? = some record := by
      obtain ⟨inside, -⟩ := List.getElem?_eq_some_iff.mp known
      rwa [List.getElem?_append_left inside]
    have newest {id : Nat} {record : RecordLifetime}
        (known : (s.records ++ [⟨s.now, call.now + ttlSeconds⟩])[id]? = some record) :
        s.records[id]? = some record ∨ id = s.records.length := by
      rcases Nat.lt_trichotomy id s.records.length with before | same | beyond
      · rw [List.getElem?_append_left before] at known
        exact .inl known
      · exact .inr same
      · obtain ⟨inside, -⟩ := List.getElem?_eq_some_iff.mp known
        rw [List.length_append] at inside
        exact absurd inside (by simp only [List.length_singleton]; omega)
    constructor
    case dated =>
      constructor
      · apply List.pairwise_append.mpr
        refine ⟨kept.dated.ordered, List.pairwise_singleton .., fun record member new last => ?_⟩
        obtain rfl := List.mem_singleton.mp last
        exact expired record member
      · exact List.forall_mem_append.mpr ⟨kept.dated.past,
          List.forall_mem_singleton.mpr (Nat.le_refl _)⟩
      · intro id record known alive
        obtain old | rfl := newest known
        · have late := expired record (List.mem_of_getElem? old)
          exact absurd alive (Nat.not_lt_of_le late)
        · exact ⟨_, rfl, rfl⟩
      · intro row stored
        obtain rfl := Option.some.inj stored
        exact ⟨_, List.getElem?_concat_length .., rfl⟩
    case calls =>
      intro other member
      obtain before | rfl := mem_set member
      · have each := kept.calls other before
        constructor
        · exact each.called
        · intro id marks
          obtain ⟨record, known, late⟩ := each.stale id marks
          exact ⟨record, grows known, late⟩
        · intro id made
          have bound := each.created id made
          rw [List.length_append]
          exact Nat.lt_add_right _ bound
        · exact each.fresh
        · exact each.silent
        · intro row stored works
          obtain rfl := Option.some.inj stored
          rfl
        · intro row stored ends
          obtain rfl := Option.some.inj stored
          have bound := each.created s.records.length (by rw [ends]; rfl)
          omega
      · constructor
        · exact held.called
        · exact nofun
        · intro id made
          obtain rfl := Option.some.inj made
          rw [List.length_append]
          exact Nat.lt_add_one _
        · intro id tries execution member same
          obtain rfl := PlanCallPhase.trying.inj tries
          obtain ⟨record, known, -⟩ := kept.within execution member
          obtain ⟨inside, -⟩ := List.getElem?_eq_some_iff.mp known
          omega
        · intro id works answer member same
          obtain rfl := Option.some.inj works
          have bound := (kept.answered answer member).1
          omega
        · intro row stored works
          obtain rfl := Option.some.inj stored
          rfl
        · exact nofun
    case apart =>
      intro i j a b id at_i at_j made_a made_b
      have cases_of {i : Nat} {a : PlanCall F}
          (held_i : (s.calls.set index { call with phase := .trying s.records.length })[i]? =
            some a)
          (made_i : a.phase.created = some id) :
          (i = index ∧ id = s.records.length) ∨ (s.calls[i]? = some a ∧ id < s.records.length) := by
        by_cases here : index = i
        · subst here
          obtain ⟨inside, -⟩ := List.getElem?_eq_some_iff.mp found
          rw [List.getElem?_set_self inside] at held_i
          obtain rfl := Option.some.inj held_i
          exact .inl ⟨rfl, (Option.some.inj made_i).symm⟩
        · rw [List.getElem?_set_ne here] at held_i
          have each := kept.calls a (List.mem_of_getElem? held_i)
          exact .inr ⟨held_i, each.created id made_i⟩
      obtain ⟨rfl, new⟩ | ⟨old_a, before⟩ := cases_of at_i made_a <;>
        obtain ⟨rfl, new'⟩ | ⟨old_b, before'⟩ := cases_of at_j made_b
      · rfl
      · omega
      · omega
      · exact kept.apart i j a b id old_a old_b made_a made_b
    case each => exact kept.each
    case within =>
      intro execution member
      obtain ⟨record, known, period⟩ := kept.within execution member
      exact ⟨record, grows known, period⟩
    case same => exact kept.same
    case answered =>
      intro answer member
      have bound := (kept.answered answer member).1
      refine ⟨?_, fun row stored named => ?_⟩
      · rw [List.length_append]
        exact Nat.lt_add_right _ bound
      · obtain rfl := Option.some.inj stored
        exact absurd named (Nat.ne_of_gt bound)
    case complete =>
      intro row stored succeeded
      obtain rfl := Option.some.inj stored
      contradiction
    case replayed => exact kept.replayed
  next =>
    cases stepped
    exact kept.set found (moves_ended nofun nofun)
  next => contradiction

theorem Kept.execute (kept : s.Kept) {index : Nat}
    (within : s.orderly (.execute index) = true)
    (stepped : s.step ttlSeconds (.execute index) = some t) : t.Kept := by
  obtain ⟨call, found, stepped⟩ := Option.bind_eq_some_iff.mp stepped
  have held := kept.calls call (List.mem_of_getElem? found)
  split at stepped
  next id tries =>
    cases stepped
    have made : call.phase.created = some id := by rw [tries]; rfl
    have goes : s.Moves call (.executing id) :=
      moves_of_atWork (by rw [tries]; rfl) rfl nofun
    have moved := kept.set found goes
    obtain ⟨record, known⟩ : ∃ record, s.records[id]? = some record :=
      ⟨_, List.getElem?_eq_getElem (held.created id made)⟩
    have alive : s.now < record.expiresAt := by
      rw [orderly, found] at within
      simpa [made, known] using within
    constructor
    case dated =>
      exact ⟨kept.dated.ordered, kept.dated.past, kept.dated.alive, kept.dated.stored⟩
    case calls =>
      intro other member
      have each := moved.calls other member
      refine ⟨each.called, each.stale, each.created, fun id' tries' => ?_, each.silent, each.blank,
        each.settled⟩
      refine List.forall_mem_append.mpr ⟨each.fresh id' tries', List.forall_mem_singleton.mpr ?_⟩
      rintro rfl
      obtain rfl | ⟨-, other_made⟩ := kept.alone found made member
      · contradiction
      · rw [tries'] at other_made
        exact other_made rfl
    case apart => exact moved.apart
    case each =>
      rw [List.map_append]
      refine List.Nodup.append kept.each (List.nodup_singleton _) ?_
      intro other member last
      obtain ⟨execution, inside, rfl⟩ := List.mem_map.mp member
      exact held.fresh id tries execution inside (List.mem_singleton.mp last)
    case within =>
      refine List.forall_mem_append.mpr ⟨kept.within, List.forall_mem_singleton.mpr ?_⟩
      exact ⟨record, known, kept.dated.past record (List.mem_of_getElem? known), alive⟩
    case same => exact kept.same
    case answered => exact kept.answered
    case complete => exact kept.complete
    case replayed => exact kept.replayed
  next => contradiction

theorem Kept.finish (kept : s.Kept) {index : Nat} {response : R}
    (stepped : s.step ttlSeconds (.finish index response) = some t) : t.Kept := by
  obtain ⟨call, found, stepped⟩ := Option.bind_eq_some_iff.mp stepped
  have held := kept.calls call (List.mem_of_getElem? found)
  split at stepped
  next id finishes =>
    have works : call.phase.atWork = some id := by rw [finishes]; rfl
    have made : call.phase.created = some id := atWork_created works
    have silent := held.silent id works
    split at stepped
    next finished updated =>
      cases stepped
      obtain ⟨row, stored, rfl, rfl⟩ := update_some updated
      constructor
      case dated =>
        refine ⟨kept.dated.ordered, kept.dated.past, ?_, ?_⟩
        · intro id record known alive
          obtain ⟨row', stored', named⟩ := kept.dated.alive id record known alive
          obtain rfl := Option.some.inj (stored.symm.trans stored')
          exact ⟨_, rfl, named⟩
        · rintro row' ⟨⟩
          exact kept.dated.stored row stored
      case calls =>
        intro other member
        obtain rfl | ⟨before, other_made⟩ := kept.alone found made member
        · refine ⟨held.called, nofun, fun id same => ?_, nofun, nofun, nofun, ?_⟩
          · obtain rfl := Option.some.inj same
            exact held.created row.id made
          · rintro row' ⟨⟩ -
            exact nofun
        · have each := kept.calls other before
          refine ⟨each.called, each.stale, each.created, each.fresh, fun id works' => ?_, ?_, ?_⟩
          · refine List.forall_mem_append.mpr ⟨each.silent id works',
              List.forall_mem_singleton.mpr ?_⟩
            rintro rfl
            exact other_made (atWork_created works')
          · rintro row' ⟨⟩ works'
            exact absurd (atWork_created works') other_made
          · rintro row' ⟨⟩ -
            exact nofun
      case apart =>
        apply apart_set found kept.apart
        intro id same
        obtain rfl := Option.some.inj same
        exact made
      case each => exact kept.each
      case within => exact kept.within
      case same =>
        intro first first_in second second_in named
        obtain old | new := List.mem_append.mp first_in <;>
          obtain old' | new' := List.mem_append.mp second_in
        · exact kept.same first old second old' named
        · obtain rfl := List.mem_singleton.mp new'
          exact absurd named (silent first old)
        · obtain rfl := List.mem_singleton.mp new
          exact absurd named.symm (silent second old')
        · obtain rfl := List.mem_singleton.mp new
          obtain rfl := List.mem_singleton.mp new'
          rfl
      case answered =>
        refine List.forall_mem_append.mpr
          ⟨fun answer member => ?_, List.forall_mem_singleton.mpr ?_⟩
        · refine ⟨(kept.answered answer member).1, ?_⟩
          rintro row' ⟨⟩ named
          exact absurd named.symm (silent answer member)
        · refine ⟨held.created row.id made, ?_⟩
          rintro row' ⟨⟩ -
          rfl
      case complete =>
        rintro row' ⟨⟩ -
        rfl
      case replayed => exact kept.replayed
    next missing =>
      cases stepped
      apply kept.set found (moves_ended ?_ ?_)
      · intro id' same
        obtain rfl := Option.some.inj same
        exact made
      · intro row stored same
        exact absurd (Option.some.inj same).symm (update_none missing stored)
  next => contradiction

theorem Kept.step (kept : s.Kept) {action : PlanKeyAction R F} (meets : s.orderly action = true)
    (stepped : s.step ttlSeconds action = some t) : t.Kept := by
  cases action with
  | wait seconds =>
      cases stepped
      exact kept.wait seconds
  | call fingerprint =>
      cases stepped
      exact kept.call fingerprint
  | read => exact kept.read stepped
  | expire => exact kept.expire stepped
  | delete => exact kept.delete stepped
  | insert => exact kept.insert stepped
  | execute => exact kept.execute meets stepped
  | planned => exact kept.planned stepped
  | finish => exact kept.finish stepped
  | handle => exact kept.handle stepped
  | raise index cancelled =>
      apply kept.raise _ stepped
      rwa [orderly, Bool.not_eq_true'] at meets

theorem Kept.reachable
    (reached : ((machine R F ttlSeconds).restrict fun s a => s.orderly a = true).Reachable s) :
    s.Kept := by
  refine Machine.Reachable.invariant (P := Kept) ?_ (fun kept stepped => ?_) reached
  · rintro _ rfl
    exact .start
  · obtain ⟨meets, stepped⟩ := Machine.restrict_step.mp stepped
    exact kept.step meets stepped

/-- An exception that ends a call at work leaves its record in processing. -/
theorem left_processing {index : Nat} {cancelled : Bool}
    (leaves : s.abandons index cancelled = true)
    (stepped : s.step ttlSeconds (.raise index cancelled) = some t) : ¬ t.Idempotent := by
  obtain ⟨call, found, stepped⟩ := Option.bind_eq_some_iff.mp stepped
  rw [abandons, found, Option.any_some, Option.any_eq_true] at leaves
  obtain ⟨row, stored, facts⟩ := leaves
  obtain ⟨-, processing, ends⟩ := of_decide_eq_true facts
  split at stepped
  next => contradiction
  next =>
    cases stepped
    intro idempotent
    obtain ⟨inside, -⟩ := List.getElem?_eq_some_iff.mp found
    exact idempotent.settled _ (List.mem_set inside _) row stored ends processing

end steps

/-- A call is over whose record is in processing. -/
def unsettled (s : PlanKey R F) : Bool :=
  s.calls.any fun call => s.row.any fun row =>
    decide (call.phase = .ended (some row.id) ∧ row.status = .processing)

theorem not_idempotent (unsettled : s.unsettled = true) : ¬ s.Idempotent := by
  obtain ⟨call, member, unsettled⟩ := List.any_eq_true.mp unsettled
  obtain ⟨row, stored, facts⟩ := (Option.any_eq_true ..).mp unsettled
  obtain ⟨ended, processing⟩ := of_decide_eq_true facts
  exact fun idempotent => idempotent.settled call member row stored ended processing

end PlanKey

open PlanKey in
/-- While plans start before their records expire and no exception falls behind the try block, the
key is idempotent; an exception behind it ends this. -/
theorem planning_idempotent (R F : Type) [DecidableEq F] (ttlSeconds : Nat) (s : PlanKey R F)
    (reached : ((PlanKey.machine R F ttlSeconds).restrict fun s a =>
      s.orderly a = true).Reachable s) :
    s.Idempotent ∧ ∀ index cancelled t, s.step ttlSeconds (.raise index cancelled) = some t →
      (t.Idempotent ↔ s.abandons index cancelled = false) := by
  have kept := Kept.reachable reached
  refine ⟨kept.idempotent, fun index cancelled t stepped => ⟨fun idempotent => ?_, fun stays => ?_⟩⟩
  · by_contra leaves
    exact left_processing (Bool.not_eq_false _ ▸ leaves) stepped idempotent
  · exact (kept.raise stays stepped).idempotent

open PlanKey in
theorem planning_idempotent_replayed : ∃ s : PlanKey String String,
    ((PlanKey.machine String String 60).restrict fun s a => s.orderly a = true).Reachable s ∧
      s.answers = [(0, "plan"), (0, "plan")] ∧ s.Idempotent := by
  let script : List (PlanKeyAction String String) :=
    [.call "museum", .read 0, .insert 0, .execute 0, .planned 0, .finish 0 "plan", .wait 5,
      .call "museum", .read 1]
  have ends : ((PlanKey.machine String String 60).run {} script).map (fun s =>
      ((PlanKey.machine String String 60).along orderly {} script, s.answers)) =
      some (true, [(0, "plan"), (0, "plan")]) := by decide +kernel
  obtain ⟨s, ran, both⟩ := Option.map_eq_some_iff.mp ends
  obtain ⟨met, answers⟩ := Prod.mk.inj both
  have reached := Machine.reachable_restrict_of_run (s := ({} : PlanKey String String)) script rfl
    ran (Machine.meetsAlong_of_along met)
  exact ⟨s, reached, answers, (planning_idempotent String String 60 s reached).1⟩

open PlanKey in
/-- An exception while the result is stored: the record stays in processing and refuses the same
request. -/
theorem planning_left_processing : ∃ s : PlanKey String String,
    (PlanKey.machine String String 60).Reachable s ∧
      s.refusals.map (fun refusal => refusal.1.status) = [.processing] ∧ ¬ s.Idempotent := by
  let script : List (PlanKeyAction String String) :=
    [.call "museum", .read 0, .insert 0, .execute 0, .planned 0, .raise 0 false, .wait 5,
      .call "museum", .read 1]
  have ends : ((PlanKey.machine String String 60).run {} script).map (fun s =>
      (s.refusals.map (fun refusal => refusal.1.status), s.unsettled)) =
      some ([.processing], true) := by decide +kernel
  obtain ⟨s, ran, both⟩ := Option.map_eq_some_iff.mp ends
  obtain ⟨refused, unsettled⟩ := Prod.mk.inj both
  exact ⟨s, Machine.reachable_of_run script rfl ran, refused, not_idempotent unsettled⟩

end MapGo.Planning
