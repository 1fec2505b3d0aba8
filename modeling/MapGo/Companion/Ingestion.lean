import MapGo.Transition
import MapGo.Worker.Store

/-! Ingestion of trip events. A request looks the event up, commits its rows and
then writes the queue; any number of requests, first attempts and retries alike,
run at once and may stop at any await. Commit and queue write are two systems
without an outbox, so a committed event has its message exactly when the attempt
that committed it got past the write. -/
namespace MapGo.Companion
open Transition Worker

/-- A row of `trip_events`; `announced` marks the rows whose insertion is
followed by a queue message. -/
structure EventRow where
  id : Nat
  tripId : Nat
  eventId : String
  eventType : String
  announced : Bool
  deriving DecidableEq, Repr

inductive Endpoint where
  | ingestEvent (eventType : String)
  | updateLocation
  deriving DecidableEq, Repr

/-- How far a request has come: its row to announce after the commit, its answer,
or the announcement it has left out by stopping. -/
inductive RequestPhase where
  | received
  | checked
  | committed (event : Option EventRow)
  | enqueued
  | answered (deduplicated : Bool)
  | stopped (left : Option EventRow)
  deriving DecidableEq, Repr

structure Request where
  endpoint : Endpoint
  tripId : Nat
  eventId : String
  phase : RequestPhase
  deriving DecidableEq, Repr

inductive RequestMove where
  | lookup | commit (offRoute : Bool) | enqueue (traceContext : String) | answer | fail
  deriving DecidableEq, Repr

/-- Database, the messages handed to `mapgo:trip-events`, and all requests so far. -/
structure Ingestion where
  rows : List EventRow
  nextId : Nat
  handed : List Payload
  requests : List Request
  deriving DecidableEq, Repr

namespace Ingestion

def find (s : Ingestion) (tripId : Nat) (eventId : String) : Option EventRow :=
  s.rows.find? (fun row => row.tripId = tripId ∧ row.eventId = eventId)

/-- The rows a request adds and the one it announces. -/
def newRows (s : Ingestion) (request : Request) (offRoute : Bool) :
    List EventRow × Option EventRow :=
  match request.endpoint with
  | .ingestEvent eventType =>
      let event : EventRow := ⟨s.nextId, request.tripId, request.eventId, eventType, true⟩
      ([event], some event)
  | .updateLocation =>
      let update : EventRow :=
        ⟨s.nextId, request.tripId, request.eventId, "LocationUpdated", false⟩
      let offRouteEvent : EventRow :=
        ⟨s.nextId + 1, request.tripId, "auto-offroute-" ++ request.eventId, "UserOffRoute", true⟩
      if offRoute then ([update, offRouteEvent], some offRouteEvent) else ([update], none)

/-- `db.commit()`; `none` where `UNIQUE (trip_session_id, event_id)` refuses a row. -/
def commit (s : Ingestion) (rows : List EventRow) : Option Ingestion :=
  if rows.all (fun row => (s.find row.tripId row.eventId).isNone) then
    some { s with rows := s.rows ++ rows, nextId := s.nextId + rows.length }
  else none

def message (row : EventRow) (traceContext : String) : Payload :=
  { tripId := row.tripId
    eventId := row.id
    eventType := row.eventType
    traceContext := traceContext
    attempt := 0
    maxAttempts := none }

/-- One await of a request; the off-route verdict of `update_location` is an input. -/
def advance (s : Ingestion) (request : Request) : RequestMove → Option (Ingestion × RequestPhase)
  | .lookup =>
      if request.phase = .received then
        match s.find request.tripId request.eventId with
        | some _ => some (s, .answered true)
        | none => some (s, .checked)
      else none
  | .commit offRoute =>
      if request.phase = .checked then
        let (rows, event) := s.newRows request offRoute
        match s.commit rows with
        | some after => some (after, .committed event)
        | none => some (s, .stopped none)
      else none
  | .enqueue traceContext =>
      match request.phase with
      | .committed (some event) =>
          some ({ s with handed := message event traceContext :: s.handed }, .enqueued)
      | _ => none
  | .answer =>
      match request.phase with
      | .committed none | .enqueued => some (s, .answered false)
      | _ => none
  | .fail =>
      match request.phase with
      | .answered _ | .stopped _ => none
      | .committed event => some (s, .stopped event)
      | _ => some (s, .stopped none)

def setPhase (s : Ingestion) (index : Nat) (request : Request) (phase : RequestPhase) : Ingestion :=
  { s with requests := s.requests.set index { request with phase := phase } }

end Ingestion

inductive IngestionAction where
  | receive (endpoint : Endpoint) (tripId : Nat) (eventId : String)
  | record (tripId : Nat) (eventId eventType : String)
  | request (index : Nat) (move : RequestMove)
  deriving DecidableEq, Repr

/-- `record` is an event row of another writer; such rows are never announced. -/
def ingestionMachine : Machine Ingestion IngestionAction where
  initial s := s.rows = [] ∧ s.handed = [] ∧ s.requests = []
  step s
    | .receive endpoint tripId eventId =>
        some { s with requests := s.requests ++ [⟨endpoint, tripId, eventId, .received⟩] }
    | .record tripId eventId eventType =>
        s.commit [⟨s.nextId, tripId, eventId, eventType, false⟩]
    | .request index move =>
        (s.requests[index]?).bind fun request =>
          (s.advance request move).map fun (after, phase) => after.setPhase index request phase

/-- The announced row a request has committed without a message. -/
def Request.left (request : Request) : Option EventRow :=
  match request.phase with
  | .committed event | .stopped event => event
  | _ => none

/-- The phases after the event of the request is known to be stored. -/
def Request.Stored (request : Request) : Prop :=
  match request.phase with
  | .committed _ | .enqueued | .answered _ => True
  | _ => False

namespace Ingestion

def HasRow (s : Ingestion) (tripId : Nat) (eventId : String) : Prop :=
  ∃ row ∈ s.rows, row.tripId = tripId ∧ row.eventId = eventId

def Handed (s : Ingestion) (row : EventRow) : Prop :=
  ∃ traceContext, message row traceContext ∈ s.handed

/-- An announced row has its message or a request that left it out, never both. -/
structure Accounted (s : Ingestion) : Prop where
  stored : request ∈ s.requests → request.Stored → s.HasRow request.tripId request.eventId
  announced : row ∈ s.rows → row.announced = true →
    s.Handed row ∨ ∃ request ∈ s.requests, request.left = some row
  apart : request ∈ s.requests → request.left = some row → ∀ m ∈ s.handed, m.eventId ≠ row.id
  unique : ∀ {i j : Nat} {a b : Request}, s.requests[i]? = some a → s.requests[j]? = some b →
    a.left = some row → b.left = some row' → row.id = row'.id → i = j
  leftBelow : request ∈ s.requests → request.left = some row → row.id < s.nextId
  handedBelow : m ∈ s.handed → m.eventId < s.nextId

/-- What a move of a request does to its account. -/
inductive Progress (s : Ingestion) (request : Request) : Ingestion → RequestPhase → Prop where
  | quiet (left : ({ request with phase := phase } : Request).left = request.left)
      (stored : ({ request with phase := phase } : Request).Stored →
        request.Stored ∨ s.HasRow request.tripId request.eventId) : Progress s request s phase
  | committed (free : request.left = none)
      (passed : s.commit (s.newRows request offRoute).1 = some after) :
      Progress s request after (.committed (s.newRows request offRoute).2)
  | enqueued (left : request.left = some event) (stored : request.Stored) :
      Progress s request { s with handed := message event traceContext :: s.handed } .enqueued

theorem progress_of_advance {request : Request}
    (moved : s.advance request move = some (after, phase)) : Progress s request after phase := by
  obtain ⟨endpoint, tripId, eventId, current⟩ := request
  cases move with
  | lookup =>
      simp only [advance] at moved
      split at moved
      · rename_i received
        subst received
        split at moved
        · rename_i row found
          cases Option.some.inj moved
          refine .quiet rfl fun _ => .inr ⟨row, List.mem_of_find?_eq_some found, ?_⟩
          simpa using List.find?_some found
        · cases Option.some.inj moved
          exact .quiet rfl False.elim
      · contradiction
  | commit offRoute =>
      simp only [advance] at moved
      split at moved
      · rename_i checked
        subst checked
        split at moved
        · rename_i passed
          cases Option.some.inj moved
          exact .committed rfl passed
        · cases Option.some.inj moved
          exact .quiet rfl False.elim
      · contradiction
  | enqueue traceContext =>
      cases current with
      | committed event =>
          cases event with
          | none => contradiction
          | some event =>
              cases Option.some.inj moved
              exact .enqueued rfl trivial
      | _ => contradiction
  | answer =>
      cases current with
      | committed event =>
          cases event with
          | none =>
              cases Option.some.inj moved
              exact .quiet rfl fun _ => .inl trivial
          | some event => contradiction
      | enqueued =>
          cases Option.some.inj moved
          exact .quiet rfl fun _ => .inl trivial
      | _ => contradiction
  | fail =>
      cases current with
      | answered | stopped => contradiction
      | committed =>
          cases Option.some.inj moved
          exact .quiet rfl False.elim
      | _ =>
          cases Option.some.inj moved
          exact .quiet rfl False.elim

theorem newRows_ids (s : Ingestion) (request : Request) (offRoute : Bool) :
    ∀ row ∈ (s.newRows request offRoute).1,
      s.nextId ≤ row.id ∧ row.id < s.nextId + (s.newRows request offRoute).1.length := by
  obtain ⟨_ | _, tripId, eventId, phase⟩ := request <;> cases offRoute <;>
    simp [newRows]

theorem newRows_event (s : Ingestion) (request : Request) (offRoute : Bool) :
    (∃ row ∈ (s.newRows request offRoute).1,
      row.tripId = request.tripId ∧ row.eventId = request.eventId) ∧
    (∀ event, (s.newRows request offRoute).2 = some event →
      event ∈ (s.newRows request offRoute).1) ∧
    ∀ row ∈ (s.newRows request offRoute).1, row.announced = true →
      (s.newRows request offRoute).2 = some row := by
  obtain ⟨_ | _, tripId, eventId, phase⟩ := request <;> cases offRoute <;>
    simp [newRows]

theorem commit_some {s : Ingestion} {rows : List EventRow} (passed : s.commit rows = some after) :
    after = { s with rows := s.rows ++ rows, nextId := s.nextId + rows.length } := by
  unfold commit at passed
  split at passed
  · exact (Option.some.inj passed).symm
  · contradiction

theorem HasRow.mono {s t : Ingestion} (has : HasRow s tripId eventId)
    (kept : ∀ row ∈ s.rows, row ∈ t.rows) : HasRow t tripId eventId := by
  obtain ⟨row, member, same⟩ := has
  exact ⟨row, kept row member, same⟩

variable {request changed : Request}

theorem left_of_set {requests : List Request} {index : Nat} (changed : Request)
    (at_ : requests[index]? = some request) (member : other ∈ requests)
    (left : other.left = some row) :
    (∃ later ∈ requests.set index changed, later.left = some row) ∨ request.left = some row := by
  obtain ⟨k, there⟩ := List.mem_iff_getElem?.mp member
  by_cases here : k = index
  · subst here
    exact .inr (Option.some.inj (at_.symm.trans there) ▸ left)
  · exact .inl ⟨other, List.mem_of_getElem? (by rwa [List.getElem?_set_ne (Ne.symm here)]), left⟩

theorem Accounted.quiet (inv : Accounted s) (at_ : s.requests[index]? = some request)
    (left : changed.left = request.left)
    (stored : changed.Stored → s.HasRow changed.tripId changed.eventId) :
    Accounted { s with requests := s.requests.set index changed } := by
  have inside := (List.getElem?_eq_some_iff.mp at_).1
  have was {k : Nat} {a : Request} (now : (s.requests.set index changed)[k]? = some a) :
      ∃ b, s.requests[k]? = some b ∧ b.left = a.left := by
    by_cases here : k = index
    · subst here
      rw [List.getElem?_set_self inside, Option.some.injEq] at now
      exact ⟨request, at_, now ▸ left.symm⟩
    · rw [List.getElem?_set_ne (Ne.symm here)] at now
      exact ⟨a, now, rfl⟩
  have old {a : Request} (member : a ∈ s.requests.set index changed) :
      ∃ b ∈ s.requests, b.left = a.left := by
    obtain ⟨k, now⟩ := List.mem_iff_getElem?.mp member
    obtain ⟨b, then_, same⟩ := was now
    exact ⟨b, List.mem_of_getElem? then_, same⟩
  refine ⟨fun member done => ?_, fun member announced => ?_, fun member has => ?_, ?_,
    fun member has => ?_, inv.handedBelow⟩
  · obtain there | rfl := List.mem_or_eq_of_mem_set member
    · exact inv.stored there done
    · exact stored done
  · obtain handed | ⟨other, there, has⟩ := inv.announced member announced
    · exact .inl handed
    · obtain kept | has := left_of_set changed at_ there has
      · exact .inr kept
      · exact .inr ⟨changed, List.mem_set inside _, left.trans has⟩
  · obtain ⟨b, there, same⟩ := old member
    exact inv.apart there (same.trans has)
  · intro row row' i j a b atI atJ hasA hasB same
    obtain ⟨a', thenA, sameA⟩ := was atI
    obtain ⟨b', thenB, sameB⟩ := was atJ
    exact inv.unique thenA thenB (sameA.trans hasA) (sameB.trans hasB) same
  · obtain ⟨b, there, same⟩ := old member
    exact inv.leftBelow there (same.trans has)

theorem Accounted.receive (inv : Accounted s) (request : Request) (left : request.left = none)
    (stored : ¬ request.Stored) : Accounted { s with requests := s.requests ++ [request] } := by
  have was {k : Nat} {a : Request} {row : EventRow}
      (now : (s.requests ++ [request])[k]? = some a) (has : a.left = some row) :
      s.requests[k]? = some a := by
    obtain inside | outside := Nat.lt_or_ge k s.requests.length
    · rwa [List.getElem?_append_left inside] at now
    · rw [List.getElem?_append_right outside, List.getElem?_singleton] at now
      split at now
      · cases Option.some.inj now
        simp [left] at has
      · contradiction
  refine ⟨fun member done => ?_, fun member announced => ?_, fun member has => ?_, ?_,
    fun member has => ?_, inv.handedBelow⟩
  · obtain old | new := List.mem_append.mp member
    · exact inv.stored old done
    · exact absurd (List.mem_singleton.mp new ▸ done) stored
  · refine (inv.announced member announced).imp_right ?_
    rintro ⟨other, there, has⟩
    exact ⟨other, List.mem_append_left _ there, has⟩
  · obtain ⟨k, now⟩ := List.mem_iff_getElem?.mp member
    exact inv.apart (List.mem_of_getElem? (was now has)) has
  · intro row row' i j a b atI atJ hasA hasB same
    exact inv.unique (was atI hasA) (was atJ hasB) hasA hasB same
  · obtain ⟨k, now⟩ := List.mem_iff_getElem?.mp member
    exact inv.leftBelow (List.mem_of_getElem? (was now has)) has

/-- Rows of other writers need no message. -/
theorem Accounted.append {rows : List EventRow} (inv : Accounted s)
    (passed : s.commit rows = some after) (silent : ∀ row ∈ rows, row.announced = false) :
    Accounted after := by
  rw [commit_some passed]
  refine ⟨fun member done => (inv.stored member done).mono fun row member => List.mem_append_left _ member, fun member announced => ?_,
    inv.apart, inv.unique, fun member has => ?_, fun member => ?_⟩
  · obtain old | new := List.mem_append.mp member
    · exact inv.announced old announced
    · simp [silent _ new] at announced
  · exact Nat.lt_add_right _ (inv.leftBelow member has)
  · exact Nat.lt_add_right _ (inv.handedBelow member)

/-- New rows are announced by the request that commits them. -/
theorem Accounted.committed (inv : Accounted s) (at_ : s.requests[index]? = some request)
    (free : request.left = none) (passed : s.commit (s.newRows request offRoute).1 = some after) :
    Accounted (after.setPhase index request (.committed (s.newRows request offRoute).2)) := by
  have inside := (List.getElem?_eq_some_iff.mp at_).1
  obtain ⟨own, event_mem, announce⟩ := newRows_event s request offRoute
  have ids := newRows_ids s request offRoute
  rw [commit_some passed]
  generalize s.newRows request offRoute = new at own event_mem announce ids ⊢
  -- A later row that is left out is either older or the one just committed.
  have was {k : Nat} {a : Request} {row : EventRow}
      (now : (s.requests.set index { request with phase := .committed new.2 })[k]? = some a)
      (has : a.left = some row) :
      (k ≠ index ∧ s.requests[k]? = some a) ∨ k = index ∧ new.2 = some row := by
    by_cases here : k = index
    · subst here
      rw [List.getElem?_set_self inside, Option.some.injEq] at now
      exact .inr ⟨rfl, by rw [← now] at has; exact has⟩
    · rw [List.getElem?_set_ne (Ne.symm here)] at now
      exact .inl ⟨here, now⟩
  have below {k : Nat} {a : Request} {row : EventRow} (there : s.requests[k]? = some a)
      (has : a.left = some row) : row.id < s.nextId :=
    inv.leftBelow (List.mem_of_getElem? there) has
  refine ⟨fun member done => ?_, fun member announced => ?_, fun member has => ?_, ?_,
    fun member has => ?_, fun member => Nat.lt_add_right _ (inv.handedBelow member)⟩
  · obtain there | rfl := List.mem_or_eq_of_mem_set member
    · exact (inv.stored there done).mono fun row member => List.mem_append_left _ member
    · obtain ⟨row, member, same⟩ := own
      exact ⟨row, List.mem_append_right _ member, same⟩
  · obtain old | fresh := List.mem_append.mp member
    · obtain handed | ⟨other, there, has⟩ := inv.announced old announced
      · exact .inl handed
      · obtain kept | has := left_of_set { request with phase := .committed new.2 }
          at_ there has
        · exact .inr kept
        · simp [free] at has
    · exact .inr ⟨_, List.mem_set inside _, announce _ fresh announced⟩
  · intro m handed
    obtain ⟨k, now⟩ := List.mem_iff_getElem?.mp member
    obtain ⟨-, there⟩ | ⟨-, fresh⟩ := was now has
    · exact inv.apart (List.mem_of_getElem? there) has m handed
    · have older := inv.handedBelow handed
      have newer := (ids _ (event_mem _ fresh)).1
      omega
  · intro row row' i j a b atI atJ hasA hasB same
    obtain ⟨-, thenA⟩ | ⟨rfl, freshA⟩ := was atI hasA <;>
      obtain ⟨-, thenB⟩ | ⟨rfl, freshB⟩ := was atJ hasB
    · exact inv.unique thenA thenB hasA hasB same
    · have older := below thenA hasA
      have newer := (ids _ (event_mem _ freshB)).1
      omega
    · have older := below thenB hasB
      have newer := (ids _ (event_mem _ freshA)).1
      omega
    · rfl
  · obtain ⟨k, now⟩ := List.mem_iff_getElem?.mp member
    obtain ⟨-, there⟩ | ⟨-, fresh⟩ := was now has
    · exact Nat.lt_add_right _ (below there has)
    · exact (ids _ (event_mem _ fresh)).2

theorem Accounted.enqueued (inv : Accounted s) (at_ : s.requests[index]? = some request)
    (left : request.left = some event) (stored : request.Stored) :
    Accounted (setPhase { s with handed := message event traceContext :: s.handed } index request
      .enqueued) := by
  have inside := (List.getElem?_eq_some_iff.mp at_).1
  have was {k : Nat} {a : Request} {row : EventRow}
      (now : (s.requests.set index { request with phase := .enqueued })[k]? = some a)
      (has : a.left = some row) : k ≠ index ∧ s.requests[k]? = some a := by
    by_cases here : k = index
    · subst here
      rw [List.getElem?_set_self inside, Option.some.injEq] at now
      subst now
      contradiction
    · rw [List.getElem?_set_ne (Ne.symm here)] at now
      exact ⟨here, now⟩
  refine ⟨fun member done => ?_, fun member announced => ?_, fun member has => ?_, ?_,
    fun member has => ?_, fun member => ?_⟩
  · obtain there | rfl := List.mem_or_eq_of_mem_set member
    · exact inv.stored there done
    · have has := inv.stored (List.mem_of_getElem? at_) stored
      exact has
  · obtain ⟨trace, handed⟩ | ⟨other, there, has⟩ := inv.announced member announced
    · exact .inl ⟨trace, List.mem_cons_of_mem _ handed⟩
    · obtain kept | has := left_of_set { request with phase := .enqueued } at_ there has
      · exact .inr kept
      · rw [left, Option.some.injEq] at has
        exact .inl ⟨traceContext, has ▸ List.mem_cons_self⟩
  · intro m handed
    obtain ⟨k, now⟩ := List.mem_iff_getElem?.mp member
    obtain ⟨apart, there⟩ := was now has
    obtain rfl | old := List.mem_cons.mp handed
    · intro same
      exact apart (inv.unique there at_ has left same.symm)
    · exact inv.apart (List.mem_of_getElem? there) has m old
  · intro row row' i j a b atI atJ hasA hasB same
    exact inv.unique (was atI hasA).2 (was atJ hasB).2 hasA hasB same
  · obtain ⟨k, now⟩ := List.mem_iff_getElem?.mp member
    exact inv.leftBelow (List.mem_of_getElem? (was now has).2) has
  · obtain rfl | old := List.mem_cons.mp member
    · exact inv.leftBelow (List.mem_of_getElem? at_) left
    · exact inv.handedBelow old

theorem Accounted.step (inv : Accounted s) (stepped : ingestionMachine.step s a = some t) :
    Accounted t := by
  cases a with
  | receive endpoint tripId eventId =>
      cases Option.some.inj stepped
      exact inv.receive _ rfl id
  | record tripId eventId eventType =>
      exact inv.append stepped (by simp)
  | request index move =>
      simp only [ingestionMachine, Option.bind_eq_some_iff, Option.map_eq_some_iff, Prod.exists]
        at stepped
      obtain ⟨request, at_, after, phase, moved, rfl⟩ := stepped
      cases progress_of_advance moved with
      | quiet left stored =>
          exact inv.quiet at_ left fun done => (stored done).elim
            (inv.stored (List.mem_of_getElem? at_)) id
      | committed free passed => exact inv.committed at_ free passed
      | enqueued left stored => exact inv.enqueued at_ left stored

theorem accounted_of_reachable (reached : ingestionMachine.Reachable s) : Accounted s := by
  refine reached.invariant (fun s start => ?_) fun inv stepped => inv.step stepped
  obtain ⟨rows, handed, requests⟩ := start
  constructor <;> simp [rows, handed, requests]

end Ingestion

/-- A request answered with success has its row, and an announced row has been
handed to the queue unless the request that committed it stands, or was
stopped, between its commit and its queue write. -/
theorem answered_rows_announced (s : Ingestion) (reached : ingestionMachine.Reachable s) :
    (∀ request ∈ s.requests, ∀ deduplicated, request.phase = .answered deduplicated →
      s.HasRow request.tripId request.eventId) ∧
    ∀ row ∈ s.rows, row.announced = true →
      (s.Handed row ↔ ∀ request ∈ s.requests,
        request.phase ≠ .committed (some row) ∧ request.phase ≠ .stopped (some row)) := by
  have inv := Ingestion.accounted_of_reachable reached
  constructor
  · intro request member deduplicated answered
    exact inv.stored member (by simp [Request.Stored, answered])
  · intro row member announced
    constructor
    · rintro ⟨traceContext, handed⟩ request there
      constructor <;> intro phase
      · exact inv.apart there (by simp [Request.left, phase]) _ handed rfl
      · exact inv.apart there (by simp [Request.left, phase]) _ handed rfl
    · intro past
      obtain handed | ⟨request, there, left⟩ := inv.announced member announced
      · exact handed
      · obtain ⟨notCommitted, notStopped⟩ := past request there
        obtain ⟨endpoint, tripId, eventId, phase⟩ := request
        cases phase with
        | committed event => exact absurd (congrArg _ left) notCommitted
        | stopped event => exact absurd (congrArg _ left) notStopped
        | _ => contradiction

def noRequests : Ingestion := ⟨[], 1, [], []⟩

theorem answered_rows_announced_retried : ∃ s, ingestionMachine.Reachable s ∧
    s.requests.map Request.phase = [.answered false, .answered true] ∧
    s.Handed ⟨1, 5, "event-0001", "TrafficChanged", true⟩ := by
  have reached : ingestionMachine.Reachable _ := Machine.reachable_of_run
    [.receive (.ingestEvent "TrafficChanged") 5 "event-0001", .request 0 .lookup,
      .request 0 (.commit false), .request 0 (.enqueue ""), .request 0 .answer,
      .receive (.ingestEvent "TrafficChanged") 5 "event-0001", .request 1 .lookup]
    (s := noRequests) ⟨rfl, rfl, rfl⟩ rfl
  refine ⟨_, reached, rfl, ((answered_rows_announced _ reached).2 _ List.mem_cons_self rfl).mpr ?_⟩
  decide

/-- The attempt that commits stops before the queue write; its retry is answered
as a duplicate and the message is never handed over. -/
theorem retry_answered_unqueued : ∃ s, ingestionMachine.Reachable s ∧
    s.requests = [⟨.ingestEvent "TrafficChanged", 5, "event-0001",
        .stopped (some ⟨1, 5, "event-0001", "TrafficChanged", true⟩)⟩,
      ⟨.ingestEvent "TrafficChanged", 5, "event-0001", .answered true⟩] ∧
    ¬ ∃ row, s.Handed row := by
  refine ⟨_, Machine.reachable_of_run
    [.receive (.ingestEvent "TrafficChanged") 5 "event-0001", .request 0 .lookup,
      .request 0 (.commit false), .request 0 .fail,
      .receive (.ingestEvent "TrafficChanged") 5 "event-0001", .request 1 .lookup]
    (s := noRequests) ⟨rfl, rfl, rfl⟩ rfl, rfl, ?_⟩
  rintro ⟨row, _, handed⟩
  contradiction

end MapGo.Companion
