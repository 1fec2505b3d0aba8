import MapGo.Companion.TripEvents
import MapGo.Json
import MapGo.Transition

/-! Completed stops on their way to the replanner. An event that completes a stop becomes a row of
`trip_events`; the worker takes the completed stops of a replan from the document in `context_json`,
which location updates and replans write back whole. -/
namespace MapGo.Companion

open Transition MapGo.Patch MapGo.Route

/-- A row of `trip_events`; `stop_id` is what an event that is about a stop has in its payload. -/
structure StopEvent where
  type : TripEventType
  payload : TripEventPayload := {}
  stopId : Option String := none
  impactLevel : ImpactLevel
  deriving DecidableEq

/-- The stop that the event reports as completed. -/
def StopEvent.completes (event : StopEvent) : Option String :=
  if event.type = .stopCompleted then event.stopId.filter (· ≠ "") else none

/-- `context_json` of a new trip -/
def newContext (autoApplyLowRiskPatches : Bool) : Dict :=
  [("auto_apply_low_risk_patches", .bool autoApplyLowRiskPatches)]

/-- The document as `update_location` leaves it. -/
def locatedContext (context : Dict) (sustainedSeconds distanceMeters : Json) : Dict :=
  (context.put "off_route_seconds" sustainedSeconds).put "last_off_route_distance_m" distanceMeters

/-- `int(context.get("replan_count") or 0)` -/
def replanCount (context : Dict) : Int :=
  match context.lookup "replan_count" with
  | some (.number count) => if 0 ≤ count then ⌊count⌋ else ⌈count⌉
  | some (.bool true) => 1
  | _ => 0

/-- The document as `create_pending_replan` leaves it with a new patch. -/
def replannedContext (context : Dict) (proposedAt : String) : Dict :=
  (context.put "replan_count" (.number (replanCount context + 1))).put "replan_proposed_at"
    (.str proposedAt)

/-- `[str(item) for item in trip_context.get("completed_stop_ids", [])]`; `none` is a `TypeError`. -/
def completedStopIds (text : Json → String) (context : Dict) : Option (List String) :=
  match context.lookup "completed_stop_ids" with
  | none => some []
  | some (.array items) => some (items.map text)
  | some (.object entries) => some (entries.map Prod.fst)
  | some (.str value) => some (value.toList.map fun char => String.ofList [char])
  | some _ => none

/-- `ReplannerAgent.run` hands the stops on; a directive holds twenty of them. -/
def directiveStopIds (completed : List String) : Option (List String) :=
  if completed.length ≤ 20 then some completed else none

/-- A request or a handler with the document that its session has read. -/
inductive DocumentWork where
  /-- `update_location` -/
  | locating (context : Dict)
  /-- `process_trip_event` for an event -/
  | handling (event : Nat) (context : Dict)
  /-- `create_pending_replan` -/
  | replanning (context : Dict)
  | closed

/-- The document that it has read does not name completed stops. -/
def DocumentWork.Clean : DocumentWork → Prop
  | .locating context | .handling _ context | .replanning context =>
      context.lookup "completed_stop_ids" = none
  | .closed => True

structure TripDocument where
  context : Dict
  events : List StopEvent := []
  work : List DocumentWork := []
  /-- History: the stops that each worker replan was given for its event. -/
  proposed : List (Nat × List String) := []

inductive DocumentAction where
  | ingest (type : TripEventType) (payload : TripEventPayload) (stopId : Option String)
      (current : TripState) (last : Option Instant) (cooldown : Nat) (now : Instant)
  | locate
  | commitLocation (index : Nat) (sustainedSeconds distanceMeters : Json)
  | handle (event : Nat)
  /-- `propose_replan` -/
  | propose (index : Nat)
  /-- `replan_remaining_trip`, which takes its stops from the request. -/
  | replan
  | commitReplan (index : Nat) (proposedAt : String)
  | close (index : Nat)

namespace TripDocument

def set (s : TripDocument) (index : Nat) (work : DocumentWork) : TripDocument :=
  { s with work := s.work.set index work }

def start (s : TripDocument) (work : DocumentWork) : TripDocument :=
  { s with work := s.work ++ [work] }

def step (text : Json → String) (s : TripDocument) : DocumentAction → Option TripDocument
  | .ingest type payload stopId current last cooldown now =>
      let decision := evaluateTripEvent current type payload last cooldown now
      some { s with events := s.events ++ [⟨type, payload, stopId, decision.impactLevel⟩] }
  | .locate => some (s.start (.locating s.context))
  | .commitLocation index sustainedSeconds distanceMeters => (s.work[index]?).bind fun
      | .locating context => some { s.set index .closed with
          context := locatedContext context sustainedSeconds distanceMeters }
      | _ => none
  | .handle event =>
      (s.events[event]?).map fun _ => s.start (.handling event s.context)
  | .propose index => (s.work[index]?).bind fun
      | .handling event context =>
          if (s.events[event]?).all fun row => row.impactLevel = .none then none
          else match (completedStopIds text context).bind directiveStopIds with
            | none => some (s.set index .closed)
            | some completed => some { s.set index (.replanning context) with
                proposed := s.proposed ++ [(event, completed)] }
      | _ => none
  | .replan => some (s.start (.replanning s.context))
  | .commitReplan index proposedAt => (s.work[index]?).bind fun
      | .replanning context => some { s.set index .closed with
          context := replannedContext context proposedAt }
      | _ => none
  | .close index => (s.work[index]?).map fun _ => s.set index .closed

def machine (text : Json → String) : Machine TripDocument DocumentAction where
  initial s := ∃ optIn, s = { context := newContext optIn }
  step := step text

/-- The stops that were reported completed before an event. -/
def reportedBefore (s : TripDocument) (event : Nat) : List String :=
  (s.events.take event).filterMap StopEvent.completes

/-- Nobody writes the stops into the document. -/
structure Unwritten (s : TripDocument) : Prop where
  stored : s.context.lookup "completed_stop_ids" = none
  held : ∀ work ∈ s.work, work.Clean
  proposed : ∀ entry ∈ s.proposed, entry.2 = []

theorem lookup_newContext (optIn : Bool) :
    (newContext optIn).lookup "completed_stop_ids" = none := rfl

theorem lookup_locatedContext {context : Dict} {sustainedSeconds distanceMeters : Json}
    (absent : context.lookup "completed_stop_ids" = none) :
    (locatedContext context sustainedSeconds distanceMeters).lookup "completed_stop_ids" =
      none := by
  rw [locatedContext, Dict.lookup_put_of_ne (by decide), Dict.lookup_put_of_ne (by decide), absent]

theorem lookup_replannedContext {context : Dict} {proposedAt : String}
    (absent : context.lookup "completed_stop_ids" = none) :
    (replannedContext context proposedAt).lookup "completed_stop_ids" = none := by
  rw [replannedContext, Dict.lookup_put_of_ne (by decide), Dict.lookup_put_of_ne (by decide),
    absent]

variable {text : Json → String} {s t : TripDocument}

theorem completedStopIds_of_lookup {context : Dict}
    (absent : context.lookup "completed_stop_ids" = none) :
    completedStopIds text context = some [] := by
  rw [completedStopIds, absent]

theorem clean_set {works : List DocumentWork} (index : Nat) {new : DocumentWork}
    (held : ∀ work ∈ works, work.Clean) (clean : new.Clean) :
    ∀ work ∈ works.set index new, work.Clean := by
  intro work member
  obtain before | rfl := List.mem_or_eq_of_mem_set member
  · exact held work before
  · exact clean

theorem clean_start {works : List DocumentWork} {new : DocumentWork}
    (held : ∀ work ∈ works, work.Clean) (clean : new.Clean) :
    ∀ work ∈ works ++ [new], work.Clean :=
  List.forall_mem_append.mpr ⟨held, List.forall_mem_singleton.mpr clean⟩

theorem Unwritten.step {action : DocumentAction} (unwritten : s.Unwritten)
    (stepped : s.step text action = some t) : t.Unwritten := by
  have stored := unwritten.stored
  have proposed := unwritten.proposed
  cases action with
  | ingest type payload stopId current last cooldown now =>
      cases stepped
      exact ⟨stored, unwritten.held, proposed⟩
  | locate | replan =>
      cases stepped
      exact ⟨stored, clean_start unwritten.held stored, proposed⟩
  | handle event =>
      obtain ⟨row, -, rfl⟩ := Option.map_eq_some_iff.mp stepped
      exact ⟨stored, clean_start unwritten.held stored, proposed⟩
  | commitLocation index sustainedSeconds distanceMeters =>
      obtain ⟨work, found, stepped⟩ := Option.bind_eq_some_iff.mp stepped
      have clean := unwritten.held work (List.mem_of_getElem? found)
      cases work with
      | locating context =>
          cases stepped
          exact ⟨lookup_locatedContext clean, clean_set index unwritten.held trivial, proposed⟩
      | handling | replanning | closed => contradiction
  | propose index =>
      obtain ⟨work, found, stepped⟩ := Option.bind_eq_some_iff.mp stepped
      have clean := unwritten.held work (List.mem_of_getElem? found)
      cases work with
      | handling event context =>
          dsimp only at stepped
          rw [completedStopIds_of_lookup clean] at stepped
          split at stepped
          · contradiction
          · cases stepped
            refine ⟨stored, clean_set index unwritten.held clean, ?_⟩
            exact List.forall_mem_append.mpr ⟨proposed, List.forall_mem_singleton.mpr rfl⟩
      | locating | replanning | closed => contradiction
  | commitReplan index proposedAt =>
      obtain ⟨work, found, stepped⟩ := Option.bind_eq_some_iff.mp stepped
      have clean := unwritten.held work (List.mem_of_getElem? found)
      cases work with
      | replanning context =>
          cases stepped
          exact ⟨lookup_replannedContext clean, clean_set index unwritten.held trivial, proposed⟩
      | handling | locating | closed => contradiction
  | close index =>
      obtain ⟨work, -, rfl⟩ := Option.map_eq_some_iff.mp stepped
      exact ⟨stored, clean_set index unwritten.held trivial, proposed⟩

theorem unwritten_reachable (reached : (machine text).Reachable s) : s.Unwritten := by
  refine reached.invariant ?_ fun unwritten stepped => Unwritten.step unwritten stepped
  rintro s ⟨optIn, rfl⟩
  exact ⟨lookup_newContext optIn, nofun, nofun⟩

/-- Without completed stops every stop of a plan remains. -/
theorem remainingItems_nil (stops : List Stop) :
    remainingItems stops [] = stops.map fun stop => ⟨stop.poi.id, stop⟩ := by
  simp [remainingItems]

/-- A replan that the worker proposes is given the stops reported before its event, and leaves them
alone in every plan, only where none was reported. -/
theorem worker_forgets_completed (text : Json → String) (s : TripDocument) (event : Nat)
    (completed : List String) (reached : (machine text).Reachable s)
    (proposed : (event, completed) ∈ s.proposed) :
    ((∀ stop ∈ s.reportedBefore event, stop ∈ completed) ↔ s.reportedBefore event = []) ∧
      ∀ stops : List Stop,
        (∀ stop ∈ stops, stop.poi.id ∈ s.reportedBefore event →
          (⟨stop.poi.id, stop⟩ : Item) ∉ remainingItems stops completed) ↔
        ∀ stop ∈ stops, stop.poi.id ∉ s.reportedBefore event := by
  have empty : completed = [] := (unwritten_reachable reached).proposed _ proposed
  subst empty
  constructor
  · constructor
    · intro given
      exact List.eq_nil_iff_forall_not_mem.mpr fun stop reported =>
        List.not_mem_nil (given stop reported)
    · intro none
      rw [none]
      exact nofun
  · intro stops
    rw [remainingItems_nil]
    constructor
    · intro left stop member reported
      exact left stop member reported (List.mem_map_of_mem member)
    · intro unreported stop member reported
      exact absurd reported (unreported stop member)

/-! A stop is completed, then the deadline comes at risk. -/

def completeThenRisk (stop : Option String) : List DocumentAction :=
  [.ingest .stopCompleted {} stop .activeTrip none 10 0,
    .ingest .deadlineRisk {} none .activeTrip none 10 0, .locate, .commitLocation 0 (.number 5)
      (.number 80), .handle 1, .propose 1, .commitReplan 1 "2025-05-01T10:00:00+00:00"]

/-- The worker's replan is given no stop; one was completed before its event, or none was. -/
theorem worker_forgets_completed_unreported : ∃ s : TripDocument,
    (machine fun _ => "").Reachable s ∧ (1, []) ∈ s.proposed ∧ s.reportedBefore 1 = [] ∧
      ∀ stop ∈ s.reportedBefore 1, stop ∈ ([] : List String) := by
  have ends : ((machine fun _ => "").run { context := newContext false }
      (completeThenRisk none)).map (fun s => (s.proposed, s.reportedBefore 1)) =
      some ([(1, [])], []) := by decide +kernel
  obtain ⟨s, ran, ends⟩ := Option.map_eq_some_iff.mp ends
  obtain ⟨proposals, unreported⟩ := Prod.mk.inj ends
  have reached : (machine fun _ => "").Reachable s :=
    Machine.reachable_of_run _ ⟨false, rfl⟩ ran
  have proposed : (1, []) ∈ s.proposed := by rw [proposals]; exact List.mem_singleton_self _
  exact ⟨s, reached, proposed, unreported,
    (worker_forgets_completed _ s 1 [] reached proposed).1.mpr unreported⟩

theorem completed_stop_replanned : ∃ s : TripDocument,
    (machine fun _ => "").Reachable s ∧ s.proposed = [(1, [])] ∧
      s.reportedBefore 1 = ["museum"] := by
  have ends : ((machine fun _ => "").run { context := newContext false }
      (completeThenRisk (some "museum"))).map (fun s => (s.proposed, s.reportedBefore 1)) =
      some ([(1, [])], ["museum"]) := by decide +kernel
  obtain ⟨s, ran, ends⟩ := Option.map_eq_some_iff.mp ends
  obtain ⟨proposals, reported⟩ := Prod.mk.inj ends
  exact ⟨s, Machine.reachable_of_run _ ⟨false, rfl⟩ ran, proposals, reported⟩

end TripDocument
end MapGo.Companion
