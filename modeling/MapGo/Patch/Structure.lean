import MapGo.ListEdit
import MapGo.Route.Schema

/-! Plan snapshots, patch operations and their structural application. Stops are
addressed by POI id; the first stop with the id is meant. A replacement keeps the
task of the stop it replaces. -/
namespace MapGo.Patch

open MapGo.ListEdit MapGo.Route

structure Poi where
  id : String
  name : String := ""
  source : String := "unknown"
  location : Coordinate
  rating : Option ℚ := none
  confidence : ℚ := 7 / 10
  estimatedCostYuan : Option ℚ := none
  openNow : Option Bool := none
  wheelchairAccessible : Option Bool := none
  district : Option String := none
  isOutdoor : Option Bool := none
  deriving DecidableEq, Repr

/-- What a planned stop says besides its task and POI. -/
structure Timing where
  candidateRank : Nat := 0
  arrivalTime : Option DateTime := none
  departureTime : Option DateTime := none
  travel : Option RouteEdge := none
  constraintSatisfied : Option Bool := none
  deriving DecidableEq, Repr

structure Stop extends Timing where
  taskIndex : Int
  task : PlanningTask
  poi : Poi
  deriving DecidableEq, Repr

/-- A `replacement_stop` as it was sent: POI and task may be missing or empty. -/
structure Replacement extends Timing where
  task : Option PlanningTask
  poi : Option Poi
  deriving DecidableEq, Repr

structure Snapshot where
  status : Option String := none
  /-- The version that the plan itself names. -/
  planVersion : Option Nat := none
  origin : Option Coordinate := none
  departureTime : Option DateTime := none
  intent : PlanningIntent
  stops : List Stop
  totalDistanceMeters : Option ℚ := none
  totalTravelSeconds : Option ℚ := none
  estimatedCostYuan : Option ℚ := none
  confidence : Option ℚ := none
  algorithm : Option String := none
  deriving DecidableEq, Repr

/-- A departure time as it was sent. -/
inductive TimeText where
  | missing
  | unreadable
  | naive
  | aware (time : DateTime)
  deriving DecidableEq, Repr

inductive Operation where
  | removeStop (stopId : Option String)
  | moveStop (fromPosition toPosition : Option Nat)
  | replaceStop (stopId : Option String) (replacement : Option Replacement)
  | changeTransportMode (mode : Option TransportMode)
  | changeDepartureTime (departure : TimeText)
  deriving DecidableEq, Repr

def stopNotFound (stopId : Option String) : AppError :=
  ⟨422, "PATCH_STOP_NOT_FOUND", "找不到站点 " ++ (stopId.map reprText).getD "None"⟩

def positionInvalid : AppError := ⟨422, "PATCH_POSITION_INVALID", "移动站点的位置无效"⟩

def replacementInvalid : AppError :=
  ⟨422, "PATCH_REPLACEMENT_INVALID", "替换站点必须包含 POI 和任务"⟩

def transportModeInvalid : AppError := ⟨422, "PATCH_TRANSPORT_MODE_INVALID", "交通方式无效"⟩

def departureTimeInvalid (message : String) : AppError :=
  ⟨422, "PATCH_DEPARTURE_TIME_INVALID", message⟩

def emptyPlan : AppError := ⟨422, "PATCH_EMPTY_PLAN", "正式计划至少需要保留一个站点"⟩

/-- The replaced stop keeps its task identity. -/
def Replacement.settle (replacement : Replacement) (poi : Poi) (stop : Stop) : Stop :=
  { replacement with taskIndex := stop.taskIndex, task := stop.task, poi := poi }

/-- The edit of a valid replacement. -/
def Replacement.edit (replacement : Replacement) : Option (Stop → Stop) :=
  match replacement.poi, replacement.task with
  | some poi, some _ => some (replacement.settle poi)
  | _, _ => none

def stopPosition (stopId : Option String) (stops : List Stop) : Option Nat :=
  stopId.bind fun id => position (fun stop : Stop => stop.poi.id) id stops

/-- One operation on the snapshot and the list of stops. -/
def applyOperation (state : Snapshot × List Stop) :
    Operation → Except AppError (Snapshot × List Stop)
  | .removeStop stopId =>
      match stopPosition stopId state.2 with
      | none => .error (stopNotFound stopId)
      | some i => .ok (state.1, state.2.eraseIdx i)
  | .moveStop (some source) (some target) =>
      if state.2.length ≤ source ∨ state.2.length ≤ target then .error positionInvalid
      else .ok (state.1, moveTo state.2 source target)
  | .moveStop _ _ => .error positionInvalid
  | .replaceStop stopId replacement =>
      match stopPosition stopId state.2 with
      | none => .error (stopNotFound stopId)
      | some i =>
          match replacement.bind Replacement.edit with
          | none => .error replacementInvalid
          | some edit => .ok (state.1, state.2.modify i edit)
  | .changeTransportMode (some mode) =>
      .ok ({ state.1 with intent := { state.1.intent with transportMode := mode } }, state.2)
  | .changeTransportMode none => .error transportModeInvalid
  | .changeDepartureTime (.aware time) =>
      .ok ({ state.1 with departureTime := some time }, state.2)
  | .changeDepartureTime .unreadable => .error (departureTimeInvalid "补丁出发时间无效")
  | .changeDepartureTime _ => .error (departureTimeInvalid "补丁出发时间必须含时区")

def applyPatchStructure (snapshot : Snapshot) (operations : List Operation) :
    Except AppError (Snapshot × List Stop) := do
  let result ← operations.foldlM applyOperation (snapshot, snapshot.stops)
  if result.2 = [] then .error emptyPlan else .ok result

section

variable {snapshot : Snapshot} {stops : List Stop}

theorem stopPosition_some (id : String) :
    stopPosition (some id) stops = position (fun stop : Stop => stop.poi.id) id stops := rfl

theorem remove_ok_iff {id : String} {result : Snapshot × List Stop} :
    applyOperation (snapshot, stops) (.removeStop (some id)) = .ok result ↔
      ∃ after, removeFirst (fun stop : Stop => stop.poi.id) id stops = some after ∧
        result = (snapshot, after) := by
  simp only [applyOperation, stopPosition_some, removeFirst]
  cases position (fun stop : Stop => stop.poi.id) id stops <;> simp [eq_comm]

theorem replace_ok_iff {id : String} {replacement : Replacement} {edit : Stop → Stop}
    (valid : replacement.edit = some edit) {result : Snapshot × List Stop} :
    applyOperation (snapshot, stops) (.replaceStop (some id) (some replacement)) = .ok result ↔
      ∃ after, replaceFirst (fun stop : Stop => stop.poi.id) id edit stops = some after ∧
        result = (snapshot, after) := by
  simp only [applyOperation, stopPosition_some, replaceFirst, Option.bind_some, valid]
  cases position (fun stop : Stop => stop.poi.id) id stops <;> simp [eq_comm]

theorem move_ok_iff {source target : Nat} {result : Snapshot × List Stop} :
    applyOperation (snapshot, stops) (.moveStop (some source) (some target)) = .ok result ↔
      (source < stops.length ∧ target < stops.length) ∧
        result = (snapshot, moveTo stops source target) := by
  simp only [applyOperation]
  split <;> rename_i bounds
  · simp only [reduceCtorEq, false_iff]
    omega
  · have inside : source < stops.length ∧ target < stops.length := by omega
    simp [inside, eq_comm]

theorem applyPatchStructure_ok_iff {operations : List Operation} {result : Snapshot × List Stop} :
    applyPatchStructure snapshot operations = .ok result ↔
      operations.foldlM applyOperation (snapshot, snapshot.stops) = .ok result ∧
        result.2 ≠ [] := by
  simp only [applyPatchStructure, bind_eq_ok]
  constructor
  · rintro ⟨state, folded, done⟩
    split at done
    · contradiction
    · rename_i occupied
      cases done
      exact ⟨folded, occupied⟩
  · rintro ⟨folded, occupied⟩
    exact ⟨result, folded, by simp [occupied]⟩

/-- A block of operations that act as partial functions on the stops alone. -/
theorem fold_ok_iff {β : Type} {operation : β → Operation}
    (act : β → List Stop → Option (List Stop))
    (step : ∀ item stops result, applyOperation (snapshot, stops) (operation item) = .ok result ↔
      ∃ after, act item stops = some after ∧ result = (snapshot, after))
    (items : List β) (stops : List Stop) {result : Snapshot × List Stop} :
    (items.map operation).foldlM applyOperation (snapshot, stops) = .ok result ↔
      ∃ after, items.foldlM (fun stops item => act item stops) stops = some after ∧
        result = (snapshot, after) := by
  induction items generalizing stops with
  | nil => simp [pure, Except.pure, eq_comm]
  | cons item items ih =>
      simp only [List.map_cons, List.foldlM_cons, bind_eq_ok, step, Option.bind_eq_bind,
        Option.bind_eq_some_iff]
      constructor
      · rintro ⟨state, ⟨middle, first, rfl⟩, rest⟩
        obtain ⟨after, others, rfl⟩ := (ih middle).mp rest
        exact ⟨after, ⟨middle, first, others⟩, rfl⟩
      · rintro ⟨after, ⟨middle, first, rest⟩, rfl⟩
        exact ⟨_, ⟨middle, first, rfl⟩, (ih middle).mpr ⟨after, rest, rfl⟩⟩

theorem fold_append_ok {first second : List Operation} {state result : Snapshot × List Stop} :
    (first ++ second).foldlM applyOperation state = .ok result ↔
      ∃ middle, first.foldlM applyOperation state = .ok middle ∧
        second.foldlM applyOperation middle = .ok result := by
  rw [List.foldlM_append, bind_eq_ok]

end

/-! ### What a patch leaves of the snapshot -/

section

variable {γ : Type} {f : Snapshot → γ}
  (modes : ∀ (snapshot : Snapshot) mode,
    f { snapshot with intent := { snapshot.intent with transportMode := mode } } = f snapshot)
  (departures : ∀ (snapshot : Snapshot) time,
    f { snapshot with departureTime := some time } = f snapshot)

include modes departures

/-- An operation keeps every attribute but those of the transport mode and the departure. -/
theorem applyOperation_attribute {state result : Snapshot × List Stop} {operation : Operation}
    (applied : applyOperation state operation = .ok result) : f result.1 = f state.1 := by
  cases operation with
  | removeStop stopId =>
      simp only [applyOperation] at applied
      split at applied
      · contradiction
      · cases applied
        rfl
  | moveStop source target =>
      unfold applyOperation at applied
      split at applied
      all_goals first
        | contradiction
        | skip
      split at applied
      · contradiction
      · cases applied
        rfl
  | replaceStop stopId replacement =>
      simp only [applyOperation] at applied
      split at applied
      · contradiction
      · split at applied
        · contradiction
        · cases applied
          rfl
  | changeTransportMode mode =>
      cases mode with
      | none => contradiction
      | some mode =>
          cases applied
          exact modes state.1 mode
  | changeDepartureTime departure =>
      cases departure with
      | aware time =>
          cases applied
          exact departures state.1 time
      | _ => contradiction

theorem foldlM_attribute {operations : List Operation} {state result : Snapshot × List Stop}
    (applied : operations.foldlM applyOperation state = .ok result) :
    f result.1 = f state.1 := by
  induction operations generalizing state with
  | nil =>
      cases applied
      rfl
  | cons operation rest ih =>
      rw [List.foldlM_cons] at applied
      obtain ⟨middle, first, applied⟩ := bind_eq_ok.mp applied
      exact (ih applied).trans (applyOperation_attribute modes departures first)

theorem applyPatchStructure_attribute {snapshot : Snapshot} {operations : List Operation}
    {result : Snapshot × List Stop}
    (applied : applyPatchStructure snapshot operations = .ok result) :
    f result.1 = f snapshot := by
  simp only [applyPatchStructure, bind_eq_ok] at applied
  obtain ⟨state, ran, kept⟩ := applied
  split at kept
  · contradiction
  · cases kept
    exact foldlM_attribute modes departures ran

end

end MapGo.Patch
