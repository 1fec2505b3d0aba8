import MapGo.Planning.WrittenTimes
import MapGo.Route.BeamOrder
import MapGo.Route.Detour
import MapGo.Patch.WellFormed

/-! The three ways on which written times reach the evaluation: planning a request, replanning the
rest of a trip and validating a patched plan. The departure gets an offset where it lacks one, and
so does the answer for an appointment; other times are compared as they were written. -/
namespace MapGo.Planning

open MapGo.Route Tracking
open MapGo.Patch (CoversTasks Item MapProvider PendingReplanRequest closedIds evenProvider
  identityConflicts identityConflicts_eq_nil_iff positioned positioned_matrixIndex
  positioned_taskIndex selectStops selectStops_conflicts_iff selectStops_nodes selectStops_order
  substitute)

/-! ### The search -/

/-- Whole seconds from the departure to a time, if there is one. -/
def secondsFrom (departure : Stamp) (time : Option Stamp) : Except EvaluationError (Option Int) :=
  match time with
  | some time => do
      let delta ← time.minus departure
      return some (delta.tdiv 1000000)
  | none => .ok none

/-- `horizon` -/
def horizon : Int := 7 * 24 * 3600

/-- The time window of a task in `_ortools_joint`: whether it is open at all. -/
def windowOpen (departure : Stamp) (times : TaskTimes) : Except EvaluationError Bool := do
  let earliest ← secondsFrom departure (times.appointmentTime.or times.earliestArrival)
  let latest ← secondsFrom departure (times.appointmentTime.or times.deadline)
  let lower := max 0 (earliest.getD 0)
  let upper := min horizon (latest.getD horizon)
  return 0 ≤ upper && lower ≤ upper

/-- The first closed window ends the loop. -/
def windowsOpen (departure : Stamp) : List WrittenTask → Except EvaluationError Bool
  | [] => .ok true
  | task :: rest => do
      let possible ← windowOpen departure task.times
      if possible then windowsOpen departure rest else return false

/-- `_ortools_joint` around the routing model; without one the import fails. -/
def ortoolsJoint (model : Option RoutingSolver) (ctx : WrittenContext)
    (groups : List (List CandidateNode)) : Except EvaluationError (Option (List Nat × Selection)) :=
  match model with
  | none => .ok none
  | some solve => do
      let possible ← windowsOpen ctx.departure (ctx.tasks.take groups.length)
      return if possible then
          solve ctx.read.departure ctx.read.tasks groups ctx.read.matrix ctx.read.preferences
            ctx.read.constraints
        else none

/-- `fixed_user_order` -/
def fixedUserOrder (ctx : Context) : Bool :=
  let required := ctx.constraints.requiredTaskOrder
  decide (required.length = ctx.tasks.length) &&
    required.all (· ∈ (List.range ctx.tasks.length).map Int.ofNat) &&
    (List.range ctx.tasks.length).all (Int.ofNat · ∈ required)

/-- What the solver answers where it is asked. -/
def solverAnswer (model : Option RoutingSolver) (ctx : WrittenContext)
    (groups : List (List CandidateNode)) : Except EvaluationError (Option (List Nat × Selection)) :=
  if isExact groups ctx.read.tasks.length || fixedUserOrder ctx.read then .ok none
  else ortoolsJoint model ctx groups

/-- The orders and selections that `optimize_joint_route` evaluates. -/
def searchWritten (model : Option RoutingSolver) (ctx : WrittenContext)
    (groups : List (List CandidateNode)) :
    Except EvaluationError (List (List Nat × Selection)) := do
  let answer ← solverAnswer model ctx groups
  orOther ((searched (fun _ _ _ _ _ _ => answer) ctx.read groups).map Prod.fst)

/-- `optimize_joint_route` on written times. -/
def optimizeWritten (model : Option RoutingSolver) (ctx : WrittenContext)
    (groups : List (List CandidateNode)) : Except EvaluationError RouteEvaluation := do
  let _ ← orOther (baselineDistance groups ctx.read.matrix)
  let found ← searchWritten model ctx groups
  let evaluations ← found.mapM fun choice => evaluateWritten ctx choice.1 choice.2
  orOther (best ctx.read.preferences evaluations)

/-! ### Planning a request -/

structure WrittenConstraints where
  hard : HardConstraints := {}
  latestReturnTime : Option Stamp := none
  safetyBuffers : List Nat := []
  written : hard.latestReturnTime = latestReturnTime.map Stamp.time

/-- A planning intent; its preferences are those behind the answers. -/
structure WrittenIntent where
  departureTime : Option Stamp := none
  transportMode : TransportMode := .walking
  tasks : List WrittenTask
  preferences : PlanningPreferences := {}
  constraints : WrittenConstraints

/-- The value under `appointment_time` in an answer. -/
inductive AppointmentAnswer where
  | text (text : String)
  | time (time : Stamp)
  | other

/-- What `IntentAgent.run` reads of a request besides the text; a key is the integer that it
spells. -/
structure WrittenRequest where
  departureTime : Option Stamp := none
  transportMode : Option TransportMode := none
  constraints : Option WrittenConstraints := none
  defaultServiceDurationMinutes : Nat := 15
  taskLocationOverrides : List (Option Int × String) := []
  taskFieldOverrides : List (Option Int × Option AppointmentAnswer) := []

/-- `datetime.fromisoformat` and the clock of `Asia/Shanghai`. -/
structure Calendar where
  fromIsoFormat : String → Option Stamp
  shanghai : Instant → DateTime

/-- The time with the offset that it lacks. -/
def Calendar.localize (calendar : Calendar) : Stamp → DateTime
  | .naive instant => calendar.shanghai instant
  | .aware time => time

def Calendar.appointment (calendar : Calendar) : AppointmentAnswer → Option DateTime
  | .text text => (calendar.fromIsoFormat text).map calendar.localize
  | .time time => some (calendar.localize time)
  | .other => none

namespace TaskTimes.Of
variable {times : TaskTimes} {task : PlanningTask}

theorem located (written : times.Of task) (location : Option String) :
    times.Of { task with locationName := location } :=
  ⟨written.earliestArrival, written.deadline, written.appointmentTime⟩

theorem served (written : times.Of task) (minutes : Nat) :
    times.Of { task with serviceDurationMinutes := minutes } :=
  ⟨written.earliestArrival, written.deadline, written.appointmentTime⟩

theorem appointed (task : PlanningTask) (appointment : DateTime) :
    Of ⟨some (.aware appointment), some (.aware appointment), some (.aware appointment)⟩
      { task with
        appointmentTime := some appointment
        earliestArrival := some appointment
        deadline := some appointment } :=
  ⟨rfl, rfl, rfl⟩

end TaskTimes.Of

namespace WrittenTask

def located (task : WrittenTask) (location : String) : WrittenTask where
  task := { task.task with locationName := some location }
  times := task.times
  written := task.written.located _

def appointed (task : WrittenTask) (appointment : DateTime) : WrittenTask where
  task := { task.task with
    appointmentTime := some appointment
    earliestArrival := some appointment
    deadline := some appointment }
  times := ⟨some (.aware appointment), some (.aware appointment), some (.aware appointment)⟩
  written := .appointed _ _

def served (task : WrittenTask) (minutes : Nat) : WrittenTask where
  task := { task.task with
    serviceDurationMinutes :=
      if task.task.serviceDurationMinutes = 0 then minutes else task.task.serviceDurationMinutes }
  times := task.times
  written := task.written.served _

end WrittenTask

/-- Changes the task under a key; a key that spells no position of a task is an error. -/
def modifyTask (tasks : List WrittenTask) (key : Option Int) (f : WrittenTask → WrittenTask) :
    Except EvaluationError (List WrittenTask) :=
  match key with
  | some (.ofNat index) =>
      if index < tasks.length then .ok (tasks.modify index f) else .error .other
  | _ => .error .other

def overrideFields (calendar : Calendar) (tasks : List WrittenTask)
    (entry : Option Int × Option AppointmentAnswer) : Except EvaluationError (List WrittenTask) :=
  match entry.2 with
  | some answer => do
      let appointment ← orOther (calendar.appointment answer)
      modifyTask tasks entry.1 (·.appointed appointment)
  | none => modifyTask tasks entry.1 id

/-- The intent of `IntentAgent.run` for the one that the parser has read. -/
def runIntent (calendar : Calendar) (request : WrittenRequest) (parsed : WrittenIntent) :
    Except EvaluationError WrittenIntent := do
  let tasks ← request.taskLocationOverrides.foldlM
    (fun tasks entry => modifyTask tasks entry.1 (·.located entry.2)) parsed.tasks
  let tasks ← request.taskFieldOverrides.foldlM (overrideFields calendar) tasks
  return {
    departureTime := request.departureTime.or parsed.departureTime
    transportMode := request.transportMode.getD parsed.transportMode
    tasks := tasks.map (·.served request.defaultServiceDurationMinutes)
    preferences := parsed.preferences
    constraints := request.constraints.getD parsed.constraints }

/-- The evaluation of an intent from a departure. -/
def WrittenIntent.context (intent : WrittenIntent) (departure : Stamp) (matrix : RouteMatrix) :
    WrittenContext where
  read :=
    { departure := departure.time
      tasks := intent.tasks.map WrittenTask.task
      matrix := matrix
      preferences := intent.preferences
      constraints := intent.constraints.hard
      mode := intent.transportMode
      safetyBufferMinutes := intent.constraints.safetyBuffers.foldl max 0 }
  departure := departure
  tasks := intent.tasks
  latestReturnTime := intent.constraints.latestReturnTime
  departs := rfl
  plans := rfl
  returns := intent.constraints.written

/-- What `PlannerAgent.run` evaluates; without a departure in the intent it is `now`. -/
def plannerContext (calendar : Calendar) (now : DateTime) (intent : WrittenIntent)
    (matrix : RouteMatrix) : WrittenContext :=
  intent.context (.aware ((intent.departureTime.map calendar.localize).getD now)) matrix

/-- The evaluation on the matrix with the verified transit edges. -/
def WrittenContext.refined (ctx : WrittenContext) (evaluation : RouteEvaluation)
    (edges : List RouteEdge) : WrittenContext :=
  { ctx with
    read := { ctx.read.refined evaluation edges with
      previousOrder := [], baselineDistanceMeters := none }
    departs := ctx.departs
    plans := ctx.plans
    returns := ctx.returns }

/-- The search with the baseline that it measures against. -/
def WrittenContext.against (ctx : WrittenContext) (groups : List (List CandidateNode)) :
    WrittenContext :=
  { ctx with
    read := { ctx.read with baselineDistanceMeters := baselineDistance groups ctx.read.matrix }
    departs := ctx.departs
    plans := ctx.plans
    returns := ctx.returns }

/-- The route of `PlannerAgent.run`. -/
def planWritten (model : Option RoutingSolver)
    (transit : List CandidateNode → Option (List RouteEdge)) (ctx : WrittenContext)
    (groups : List (List CandidateNode)) : Except EvaluationError RouteEvaluation := do
  let evaluation ← optimizeWritten model (ctx.against groups) groups
  match refinement ctx.read transit evaluation with
  | some edges =>
      evaluateWritten (ctx.refined evaluation edges) evaluation.order
        (selectionOf evaluation.selectedNodes)
  | none => return evaluation

/-! ### Replanning the rest of a trip -/

/-- A stop of a stored plan with the times of its task as they were written. -/
structure WrittenStop where
  stop : Patch.Stop
  times : TaskTimes
  written : times.Of stop.task

structure WrittenSnapshot where
  origin : Option Coordinate := none
  departureTime : Option Stamp := none
  intent : WrittenIntent
  stops : List WrittenStop

def WrittenStop.task (stop : WrittenStop) : WrittenTask :=
  ⟨stop.stop.task, stop.times, stop.written⟩

/-- The stop at the place of a substitute. -/
def WrittenStop.moved (stop : WrittenStop) (item : Item) : WrittenStop where
  stop := { stop.stop with poi := item.stop.poi, candidateRank := item.stop.candidateRank }
  times := stop.times
  written := stop.written

/-- `optimize_route` on written times. -/
def optimizeRouteWritten (model : Option RoutingSolver) (departure : Stamp)
    (tasks : List WrittenTask) (matrix : RouteMatrix) : Except EvaluationError RouteEvaluation :=
  let groups := singleGroups tasks.length
  let plain : WrittenConstraints := { written := rfl }
  let ctx := WrittenIntent.context { tasks := tasks, constraints := plain } departure
    (compatibilityMatrix matrix)
  optimizeWritten model (ctx.against groups) groups

/-- The stops of an attempt; `none` skips it. -/
def activeWritten (stops : List WrittenStop) (dropOptional : Bool) : Option (List WrittenStop) :=
  if dropOptional then
    let active := stops.filter fun stop => stop.stop.task.required
    if active.length = stops.length || active.isEmpty then none else some active
  else some stops

def attemptsWritten (base : TransportMode) (stops : List WrittenStop) :
    List (TransportMode × List WrittenStop) :=
  let modes := base :: TransportMode.all.filter (· ≠ base)
  (modes.flatMap fun mode => [false, true].filterMap fun dropOptional =>
    (activeWritten stops dropOptional).map fun active => (mode, active)).take 4

/-- The time of an event; a naive one was stored in UTC. -/
def restoreUtc (time : Stamp) : Stamp := .aware time.time

/-- The stops that are left, and their substitutes. -/
def remainingStops (request : PendingReplanRequest) (snapshot : WrittenSnapshot) :
    List WrittenStop :=
  snapshot.stops.filter (·.stop.poi.id ∉ request.completedStopIds)

def substituteStops (provider : MapProvider) (request : PendingReplanRequest)
    (remaining : List WrittenStop) : Option (List WrittenStop) :=
  let closed := closedIds request.eventType request.eventPayload (remaining.map WrittenStop.stop)
  remaining.mapM fun stop =>
    (substitute provider request closed ⟨stop.stop.poi.id, stop.stop⟩).map fun answer =>
      stop.moved answer.1

def routePoints (origin : Coordinate) (stops : List WrittenStop) : List Coordinate :=
  origin :: stops.map fun stop => stop.stop.poi.location

/-- The evaluations of `create_pending_replan`; requests that stop before the search are left
out. -/
def replanWritten (model : Option RoutingSolver) (provider : MapProvider)
    (request : PendingReplanRequest) (currentTime : Stamp) (snapshot : WrittenSnapshot) :
    Except EvaluationError (List RouteEvaluation) :=
  let remaining := remainingStops request snapshot
  if remaining.isEmpty then .error .other
  else do
    let stops ← orOther (substituteStops provider request remaining)
    (attemptsWritten snapshot.intent.transportMode stops).mapM fun attempt => do
      let matrix ← orOther
        (provider.routeMatrix (routePoints request.currentLocation attempt.2) attempt.1)
      optimizeRouteWritten model (restoreUtc currentTime) (attempt.2.map WrittenStop.task) matrix

/-! ### Validating a patched plan -/

structure WrittenReplanContext where
  origin : Option Coordinate := none
  departureTime : Option Stamp := none

/-- The evaluation of `recalculate_and_validate_snapshot`; conflicts of identity come before it. -/
def recalculateWritten (provider : MapProvider) (snapshot : WrittenSnapshot)
    (stops : List Patch.Stop) (context : WrittenReplanContext) : Except EvaluationError (Option RouteEvaluation) :=
  match context.origin.or snapshot.origin, context.departureTime.or snapshot.departureTime with
  | some origin, some departure => do
      let points := origin :: stops.map fun stop => stop.poi.location
      let matrix ← orOther (provider.routeMatrix points snapshot.intent.transportMode)
      let ctx := snapshot.intent.context departure matrix
      let selected := selectStops ctx.read.tasks.length stops
      if identityConflicts ctx.read.tasks selected = [] then do
        let evaluation ← evaluateWritten ctx selected.order (selectionOf selected.nodes)
        return some evaluation
      else return none
  | _, _ => .error .other

/-! ### Errors along a computation -/

section

variable {α β : Type} {x : Except EvaluationError α} {f : α → Except EvaluationError β}

@[simp] theorem orOther_eq_ok {found : Option α} {value : α} :
    orOther found = .ok value ↔ found = some value := by
  cases found <;> simp [orOther]

theorem orOther_ne_mixed (found : Option α) : orOther found ≠ .error .mixedTimes := by
  cases found <;> simp [orOther]

theorem bind_ne_error {error : EvaluationError} (first : x ≠ .error error)
    (next : ∀ value, x = .ok value → f value ≠ .error error) : (x >>= f) ≠ .error error := by
  cases x with
  | ok value => exact next value rfl
  | error raised => exact fun same => first (congrArg Except.error (Except.error.inj same))

theorem first_ne_mixed (all : (x >>= f) ≠ .error .mixedTimes) : x ≠ .error .mixedTimes := by
  rintro rfl
  exact all rfl

theorem mapM_ne_mixed {items : List α} (each : ∀ item ∈ items, f item ≠ .error .mixedTimes) :
    items.mapM f ≠ .error .mixedTimes := by
  induction items with
  | nil => exact fun same => by cases same
  | cons item rest ih =>
      rw [List.mapM_cons]
      apply bind_ne_error (each item List.mem_cons_self)
      intro value _
      apply bind_ne_error (ih fun other member => each other (List.mem_cons_of_mem _ member))
      intro values _ same
      cases same

theorem head_ne_mixed {item : α} {rest : List α}
    (all : (item :: rest).mapM f ≠ .error .mixedTimes) : f item ≠ .error .mixedTimes := by
  rw [List.mapM_cons] at all
  exact first_ne_mixed all

end

/-! ### The search compares times of tasks alone -/

variable {ctx : WrittenContext} {groups : List (List CandidateNode)} {model : Option RoutingSolver}
  {found : List (List Nat × Selection)} {departure : Stamp}

/-- Every time of the intent is of the kind of the departure. -/
def WrittenContext.Uniform (ctx : WrittenContext) : Prop :=
  (∀ task ∈ ctx.tasks, task.times.fit ctx.aware = true) ∧ fits ctx.aware ctx.latestReturnTime = true

theorem WrittenContext.Uniform.coherent (uniform : ctx.Uniform) (order : List Nat) :
    ctx.Coherent order :=
  ⟨fun _ _ task present => uniform.1 task (List.mem_of_getElem? present), uniform.2⟩

theorem minus_ok {left right : Stamp} (same : left.hasOffset = right.hasOffset) :
    ∃ delta, left.minus right = .ok delta := by
  obtain ⟨difference, tracks⟩ := minus_tracks left right
  obtain ⟨delta, answered, -⟩ := tracks.related same
  exact ⟨delta, answered⟩

theorem secondsFrom_ok {time : Option Stamp} (fit : fits departure.hasOffset time = true) :
    ∃ seconds, secondsFrom departure time = .ok seconds := by
  cases time with
  | none => exact ⟨none, rfl⟩
  | some time =>
      have same : time.hasOffset = departure.hasOffset := by simpa [fits] using fit
      obtain ⟨delta, answered⟩ := minus_ok same
      exact ⟨some (delta.tdiv 1000000), by rw [secondsFrom, answered]; rfl⟩

theorem fits_or {aware : Bool} {first second : Option Stamp} (fit : fits aware first = true)
    (other : fits aware second = true) : fits aware (first.or second) = true := by
  cases first with
  | none => exact other
  | some time => exact fit

theorem windowOpen_ok {times : TaskTimes} (fit : times.fit departure.hasOffset = true) :
    ∃ possible, windowOpen departure times = .ok possible := by
  simp only [TaskTimes.fit, Bool.and_eq_true] at fit
  obtain ⟨⟨appointment, earliest⟩, deadline⟩ := fit
  obtain ⟨lower, first⟩ := secondsFrom_ok (fits_or appointment earliest)
  obtain ⟨upper, last⟩ := secondsFrom_ok (fits_or appointment deadline)
  exact ⟨_, by rw [windowOpen, first, last]; rfl⟩

theorem windowsOpen_ok {tasks : List WrittenTask}
    (fit : ∀ task ∈ tasks, task.times.fit departure.hasOffset = true) :
    ∃ possible, windowsOpen departure tasks = .ok possible := by
  induction tasks with
  | nil => exact ⟨true, rfl⟩
  | cons task rest ih =>
      obtain ⟨possible, answered⟩ := windowOpen_ok (fit task List.mem_cons_self)
      rw [windowsOpen, answered]
      cases possible with
      | false => exact ⟨false, rfl⟩
      | true => exact ih fun other member => fit other (List.mem_cons_of_mem _ member)

theorem ortoolsJoint_ok (uniform : ctx.Uniform) :
    ∃ answer, ortoolsJoint model ctx groups = .ok answer := by
  cases model with
  | none => exact ⟨none, rfl⟩
  | some solve =>
      have fit (task : WrittenTask) (member : task ∈ ctx.tasks.take groups.length) :
          task.times.fit ctx.departure.hasOffset = true :=
        uniform.1 task (List.mem_of_mem_take member)
      obtain ⟨possible, answered⟩ := windowsOpen_ok fit
      exact ⟨_, by rw [ortoolsJoint, answered]; rfl⟩

theorem searchWritten_ne_mixed (uniform : ctx.Uniform) :
    searchWritten model ctx groups ≠ .error .mixedTimes := by
  apply bind_ne_error
  · unfold solverAnswer
    split
    · exact fun same => by cases same
    · obtain ⟨answer, answered⟩ : ∃ answer, ortoolsJoint model ctx groups = .ok answer :=
        ortoolsJoint_ok uniform
      rw [answered]
      exact fun same => by cases same
  · intro answer _
    exact orOther_ne_mixed _

theorem optimizeWritten_ne_mixed (uniform : ctx.Uniform) :
    optimizeWritten model ctx groups ≠ .error .mixedTimes := by
  apply bind_ne_error (orOther_ne_mixed _)
  intro _ _
  apply bind_ne_error (searchWritten_ne_mixed uniform)
  intro found _
  apply bind_ne_error
  · apply mapM_ne_mixed
    intro choice _
    exact (evaluateWritten_tracks ctx choice.1 choice.2).ne_clash (uniform.coherent choice.1)
  · intro evaluations _
    exact orOther_ne_mixed _

/-! ### What the search finds -/

theorem beamJoint_isSome (preferences : PlanningPreferences) (constraints : HardConstraints)
    {matrix : RouteMatrix} (covered : Covers matrix groups) :
    ∃ results, beamJoint groups matrix preferences constraints = some results := by
  apply foldlM_answers (P := fun states => ∀ state ∈ states,
    BeamState.Open groups constraints.requiredTaskOrder state)
  · intro states opened _ _
    obtain ⟨results, layer⟩ := beamLayer_isSome preferences 250 covered opened
    exact ⟨results, layer, beamLayer_open opened layer⟩
  · intro state member
    rw [List.mem_singleton.mp member]
    exact ⟨List.nil_prefix, by simp, List.mem_cons_self⟩
  · intro states
    exact ⟨_, rfl⟩

/-- An answer of the solver is a complete tour over candidates of the groups. -/
def AnswersTour (groups : List (List CandidateNode)) (answer : Option (List Nat × Selection)) :
    Prop :=
  ∀ order selected, answer = some (order, selected) →
    order.Perm (List.range groups.length) ∧ Chosen groups order selected

/-- The model of the routing solver, where it is installed, answers with complete tours. -/
def CompleteModel (model : Option RoutingSolver) : Prop :=
  ∀ solve, model = some solve → solve.Complete

theorem solverAnswer_tour (complete : CompleteModel model) {answer : Option (List Nat × Selection)}
    (answered : solverAnswer model ctx groups = .ok answer) : AnswersTour groups answer := by
  rintro order selected rfl
  unfold solverAnswer at answered
  split at answered
  · cases answered
  · cases model with
    | none => cases answered
    | some solve =>
        obtain ⟨possible, -, solved⟩ := bind_eq_ok.mp answered
        have solved := Except.ok.inj solved
        split at solved
        · exact complete solve rfl _ _ _ _ _ _ _ _ solved
        · cases solved

theorem searched_tour {ctx : Context} {answer : Option (List Nat × Selection)} {algorithm : String}
    (sized : groups.length = ctx.tasks.length) (owned : Owned groups)
    (tour : AnswersTour groups answer)
    (search : searched (fun _ _ _ _ _ _ => answer) ctx groups = some (found, algorithm))
    {order : List Nat} {selected : Selection} (member : (order, selected) ∈ found) :
    order.Perm (List.range groups.length) ∧ Chosen groups order selected := by
  by_cases small : isExact groups ctx.tasks.length = true
  · obtain ⟨sound, -⟩ := searched_exact ctx sized owned small search
    obtain ⟨perm, chooses⟩ := sound order selected member
    exact ⟨perm, chooses.chosen perm⟩
  · rw [searched, if_neg small, searchLarge] at search
    split at search
    · rename_i answer' solved
      obtain ⟨rfl, -⟩ := Prod.mk.inj (Option.some.inj search)
      obtain rfl := List.mem_singleton.mp member
      split at solved
      · contradiction
      · exact tour order selected solved
    · obtain ⟨results, beam, same⟩ := Option.bind_eq_some_iff.mp search
      obtain ⟨rfl, -⟩ := Prod.mk.inj (Option.some.inj same)
      exact beamJoint_sound beam member

theorem searched_isSome {ctx : Context} {answer : Option (List Nat × Selection)}
    (covered : Covers ctx.matrix groups) :
    ∃ result, searched (fun _ _ _ _ _ _ => answer) ctx groups = some result := by
  simp only [searched]
  split
  · exact ⟨_, rfl⟩
  · simp only [searchLarge]
    split
    · exact ⟨_, rfl⟩
    · obtain ⟨results, beam⟩ := beamJoint_isSome ctx.preferences ctx.constraints covered
      exact ⟨_, by rw [beam]; rfl⟩

theorem searchWritten_tour (complete : CompleteModel model)
    (sized : groups.length = ctx.read.tasks.length) (owned : Owned groups)
    (search : searchWritten model ctx groups = .ok found) {order : List Nat} {selected : Selection}
    (member : (order, selected) ∈ found) :
    order.Perm (List.range groups.length) ∧ Chosen groups order selected := by
  obtain ⟨answer, answered, search⟩ := bind_eq_ok.mp search
  obtain ⟨⟨_, algorithm⟩, searched', rfl⟩ := Option.map_eq_some_iff.mp (orOther_eq_ok.mp search)
  exact searched_tour sized owned (solverAnswer_tour complete answered) searched' member

theorem secondsFrom_ne_other (departure : Stamp) (time : Option Stamp) :
    secondsFrom departure time ≠ .error .other := by
  cases time with
  | none => exact fun same => by cases same
  | some time =>
      apply bind_ne_error
      · cases time <;> cases departure <;> simp [Stamp.minus]
      · exact fun _ _ same => by cases same

theorem windowsOpen_ne_other (departure : Stamp) (tasks : List WrittenTask) :
    windowsOpen departure tasks ≠ .error .other := by
  induction tasks with
  | nil => exact fun same => by cases same
  | cons task rest ih =>
      apply bind_ne_error
      · apply bind_ne_error (secondsFrom_ne_other _ _)
        intro _ _
        apply bind_ne_error (secondsFrom_ne_other _ _)
        exact fun _ _ same => by cases same
      · intro possible _
        cases possible with
        | false => exact fun same => by cases same
        | true => exact ih

theorem solverAnswer_ne_other : solverAnswer model ctx groups ≠ .error .other := by
  unfold solverAnswer
  split
  · exact fun same => by cases same
  · cases model with
    | none => exact fun same => by cases same
    | some solve =>
        apply bind_ne_error (windowsOpen_ne_other _ _)
        exact fun _ _ same => by cases same

/-- Only a naive time beside an aware one can stop the search. -/
theorem searchWritten_cases (model : Option RoutingSolver)
    (covered : Covers ctx.read.matrix groups) :
    searchWritten model ctx groups = .error .mixedTimes ∨
      ∃ found, searchWritten model ctx groups = .ok found := by
  cases answered : solverAnswer model ctx groups with
  | ok answer =>
      obtain ⟨result, search⟩ : ∃ result, searched (fun _ _ _ _ _ _ => answer) ctx.read groups =
          some result := searched_isSome covered
      refine .inr ⟨result.1, bind_eq_ok.mpr ⟨answer, answered, ?_⟩⟩
      rw [search]
      rfl
  | error error =>
      rw [searchWritten, answered]
      cases error with
      | mixedTimes => exact .inl rfl
      | other => exact absurd answered solverAnswer_ne_other

/-- The search compares a naive time with an aware one unless all times are of a kind or there is
nothing to evaluate. -/
theorem optimizeWritten_iff (complete : CompleteModel model)
    (sized : groups.length = ctx.tasks.length) (owned : Owned groups)
    (covered : Covers ctx.read.matrix groups) :
    optimizeWritten model ctx groups ≠ .error .mixedTimes ↔
      ctx.Uniform ∨ searchWritten model ctx groups = .ok [] := by
  have counted : groups.length = ctx.read.tasks.length := by rw [sized, ctx.plans, List.length_map]
  obtain ⟨baseline, measured⟩ := baselineDistance_isSome covered
  rw [optimizeWritten, measured]
  constructor
  · intro all
    rcases searchWritten_cases model covered with mixed | ⟨found, search⟩
    · rw [mixed] at all
      exact absurd rfl all
    · rw [search] at all ⊢
      cases found with
      | nil => exact .inr rfl
      | cons choice rest =>
          left
          have mapped :
              (choice :: rest).mapM (fun choice => evaluateWritten ctx choice.1 choice.2) ≠
                .error .mixedTimes := first_ne_mixed all
          have first := head_ne_mixed mapped
          have member : (choice.1, choice.2) ∈ choice :: rest := List.mem_cons_self
          obtain ⟨perm, chosen⟩ := searchWritten_tour complete counted owned search member
          have known (i : Nat) (visited : i ∈ choice.1) : i < ctx.read.tasks.length :=
            counted ▸ List.mem_range.mp (perm.mem_iff.mp visited)
          obtain ⟨e, judged⟩ := evaluateJointOrder_isSome covered chosen known
          have tracks := evaluateWritten_tracks ctx choice.1 choice.2
          rw [judged] at tracks
          obtain ⟨stops, latest⟩ := tracks.ne_clash_iff.mp first
          refine ⟨fun task member => ?_, latest⟩
          obtain ⟨i, inside, rfl⟩ := List.getElem_of_mem member
          apply stops i
          · exact perm.mem_iff.mpr (List.mem_range.mpr (sized ▸ inside))
          · exact List.getElem?_eq_getElem inside
  · rintro (uniform | nothing)
    · have fine : optimizeWritten model ctx groups ≠ .error .mixedTimes :=
        optimizeWritten_ne_mixed uniform
      rwa [optimizeWritten, measured] at fine
    · rw [nothing]
      exact fun same => by cases same

/-! ### The intent behind a request -/

/-- An appointment is answered for the task. -/
def overridden (overrides : List (Option Int × Option AppointmentAnswer)) (index : Nat) : Bool :=
  overrides.any fun entry => decide (entry.1 = some (index : Int)) && entry.2.isSome

/-- Every time that is planned with has an offset: those of each task without an answer for its
appointment, and the latest return of the constraints in force. -/
def WrittenRequest.Offsets (request : WrittenRequest) (parsed : WrittenIntent) : Prop :=
  (∀ index task, parsed.tasks[index]? = some task →
    overridden request.taskFieldOverrides index = true ∨ task.times.fit true = true) ∧
  fits true (request.constraints.getD parsed.constraints).latestReturnTime = true

/-- Which tasks have offsets on all their times. -/
def offsets (tasks : List WrittenTask) : List Bool := tasks.map (·.times.fit true)

theorem modifyTask_ok {tasks changed : List WrittenTask} {key : Option Int}
    {f : WrittenTask → WrittenTask} (done : modifyTask tasks key f = .ok changed) :
    ∃ index : Nat, key = some (index : Int) ∧ changed = tasks.modify index f := by
  unfold modifyTask at done
  split at done
  · rename_i index
    split at done
    · exact ⟨index, rfl, (Except.ok.inj done).symm⟩
    · cases done
  · cases done

theorem offsets_getElem? (tasks : List WrittenTask) (index : Nat) (f : WrittenTask → WrittenTask)
    (j : Nat) : (offsets (tasks.modify index f))[j]? = (tasks[j]?).map fun task =>
      (if index = j then f task else task).times.fit true := by
  simp only [offsets, List.getElem?_map, List.getElem?_modify, Option.map_eq_map, Option.map_map]
  rfl

/-- A change that leaves the times alone. -/
theorem offsets_modify {tasks : List WrittenTask} {f : WrittenTask → WrittenTask} (index : Nat)
    (same : ∀ task, (f task).times = task.times) :
    offsets (tasks.modify index f) = offsets tasks := by
  apply List.ext_getElem?
  intro j
  rw [offsets_getElem?, offsets, List.getElem?_map]
  congr 1
  funext task
  split
  · rw [same]
  · rfl

theorem overrideFields_offsets {calendar : Calendar} {tasks changed : List WrittenTask}
    {entry : Option Int × Option AppointmentAnswer}
    (done : overrideFields calendar tasks entry = .ok changed) (j : Nat) :
    (offsets changed)[j]? = (offsets tasks)[j]?.map fun fit =>
      (decide (entry.1 = some (j : Int)) && entry.2.isSome) || fit := by
  unfold overrideFields at done
  split at done
  · rename_i answer given
    obtain ⟨appointment, -, done⟩ := bind_eq_ok.mp done
    obtain ⟨index, key, rfl⟩ := modifyTask_ok done
    rw [offsets_getElem?, offsets, List.getElem?_map, Option.map_map, key, given]
    congr 1
    funext task
    by_cases here : index = j
    · subst here
      simp [WrittenTask.appointed, TaskTimes.fit, fits, Stamp.hasOffset]
    · simp [here]
  · rename_i given
    obtain ⟨index, key, rfl⟩ := modifyTask_ok done
    rw [offsets_modify index (f := id) fun _ => rfl, given]
    simp

theorem overrides_offsets {calendar : Calendar} {tasks changed : List WrittenTask}
    {overrides : List (Option Int × Option AppointmentAnswer)}
    (done : overrides.foldlM (overrideFields calendar) tasks = .ok changed) (j : Nat) :
    (offsets changed)[j]? = (offsets tasks)[j]?.map fun fit => overridden overrides j || fit := by
  induction overrides generalizing tasks with
  | nil =>
      cases done
      simp [overridden]
  | cons entry rest ih =>
      rw [List.foldlM_cons] at done
      obtain ⟨middle, first, done⟩ := bind_eq_ok.mp done
      rw [ih done, overrideFields_offsets first, Option.map_map]
      congr 1
      funext fit
      simp only [overridden, List.any_cons, Function.comp_apply]
      cases decide (entry.1 = some (j : Int)) && entry.2.isSome <;> simp

theorem locations_offsets {tasks changed : List WrittenTask}
    {overrides : List (Option Int × String)}
    (done : overrides.foldlM (fun tasks entry => modifyTask tasks entry.1 (·.located entry.2))
      tasks = .ok changed) : offsets changed = offsets tasks := by
  induction overrides generalizing tasks with
  | nil =>
      cases done
      rfl
  | cons entry rest ih =>
      rw [List.foldlM_cons] at done
      obtain ⟨middle, first, done⟩ := bind_eq_ok.mp done
      obtain ⟨index, -, rfl⟩ := modifyTask_ok first
      rw [ih done, offsets_modify index (f := (·.located entry.2)) fun _ => rfl]

theorem all_offsets {tasks : List WrittenTask} : (∀ task ∈ tasks, task.times.fit true = true) ↔
    ∀ (index : Nat) fit, (offsets tasks)[index]? = some fit → fit = true := by
  constructor
  · intro each index fit there
    obtain ⟨task, present, rfl⟩ := List.mem_map.mp (List.mem_of_getElem? there)
    exact each task present
  · intro each task member
    obtain ⟨index, inside, rfl⟩ := List.getElem_of_mem member
    apply each index
    rw [offsets, List.getElem?_map, List.getElem?_eq_getElem inside]
    rfl

/-- The times of the intent have offsets exactly when those that are not answered had them. -/
theorem runIntent_offsets {calendar : Calendar} {request : WrittenRequest}
    {parsed intent : WrittenIntent} (ran : runIntent calendar request parsed = .ok intent) :
    (∀ task ∈ intent.tasks, task.times.fit true = true) ∧
        fits true intent.constraints.latestReturnTime = true ↔ request.Offsets parsed := by
  obtain ⟨located, first, ran⟩ := bind_eq_ok.mp ran
  obtain ⟨answered, second, ran⟩ := bind_eq_ok.mp ran
  cases ran
  apply and_congr _ Iff.rfl
  have served : (∀ task ∈ answered.map (·.served request.defaultServiceDurationMinutes),
      task.times.fit true = true) ↔ ∀ task ∈ answered, task.times.fit true = true :=
    List.forall_mem_map
  rw [served, all_offsets]
  simp only [overrides_offsets second, locations_offsets first]
  constructor
  · intro each index task there
    have fit := each index (overridden request.taskFieldOverrides index || task.times.fit true)
    rw [offsets, List.getElem?_map, there] at fit
    exact (Bool.or_eq_true ..).mp (fit rfl)
  · intro each index fit there
    rw [offsets, List.getElem?_map, Option.map_map] at there
    obtain ⟨task, present, rfl⟩ := Option.map_eq_some_iff.mp there
    exact (Bool.or_eq_true ..).mpr (each index task present)

/-! ### The three ways -/

theorem planWritten_ne_mixed {transit : List CandidateNode → Option (List RouteEdge)}
    (uniform : ctx.Uniform) : planWritten model transit ctx groups ≠ .error .mixedTimes := by
  have first : optimizeWritten model (ctx.against groups) groups ≠ .error .mixedTimes :=
    optimizeWritten_ne_mixed uniform
  apply bind_ne_error first
  intro evaluation _
  cases refinement ctx.read transit evaluation with
  | none => exact fun same => by cases same
  | some edges =>
      have refined : (ctx.refined evaluation edges).Uniform := uniform
      exact (evaluateWritten_tracks _ _ _).ne_clash (refined.coherent _)

theorem planWritten_iff {transit : List CandidateNode → Option (List RouteEdge)}
    (complete : CompleteModel model) (sized : groups.length = ctx.tasks.length)
    (owned : Owned groups) (covered : Covers ctx.read.matrix groups) :
    planWritten model transit ctx groups ≠ .error .mixedTimes ↔
      ctx.Uniform ∨ searchWritten model ctx groups = .ok [] := by
  have searched : optimizeWritten model (ctx.against groups) groups ≠ .error .mixedTimes ↔
      ctx.Uniform ∨ searchWritten model ctx groups = .ok [] :=
    optimizeWritten_iff complete sized owned covered
  constructor
  · intro all
    exact searched.mp (first_ne_mixed all)
  · rintro (uniform | nothing)
    · exact planWritten_ne_mixed uniform
    · have nothing : searchWritten model (ctx.against groups) groups = .ok [] := nothing
      obtain ⟨baseline, measured⟩ := baselineDistance_isSome covered
      have read : (ctx.against groups).read.matrix = ctx.read.matrix := rfl
      rw [planWritten, optimizeWritten, read, measured, nothing]
      exact fun same => by cases same

/-- Where no order is required, the search finds one. -/
theorem searchWritten_ne_nil (sized : groups.length = ctx.read.tasks.length) (owned : Owned groups)
    (covered : Covers ctx.read.matrix groups) (filled : [] ∉ groups)
    (free : ctx.read.constraints.requiredTaskOrder = []) :
    searchWritten model ctx groups ≠ .ok [] := by
  intro search
  obtain ⟨answer, -, search⟩ := bind_eq_ok.mp search
  obtain ⟨⟨_, algorithm⟩, search, rfl⟩ := Option.map_eq_some_iff.mp (orOther_eq_ok.mp search)
  by_cases small : isExact groups ctx.read.tasks.length = true
  · have chooses : Chooses groups (baselineSelection groups) := by
      intro i group placed
      obtain ⟨node, rest, rfl⟩ := List.exists_cons_of_ne_nil
        fun empty : group = [] => filled (empty ▸ List.mem_of_getElem? placed)
      exact ⟨node, List.mem_cons_self, by rw [baselineSelection, placed]; rfl⟩
    obtain ⟨selected, member, -⟩ :=
      (searched_exact ctx.read sized owned small search).2 _ _ (List.Perm.refl _) chooses
    contradiction
  · rw [searched, if_neg small, searchLarge] at search
    split at search
    · cases search
    · obtain ⟨results, beam, same⟩ := Option.bind_eq_some_iff.mp search
      obtain ⟨rfl, -⟩ := Prod.mk.inj (Option.some.inj same)
      have distinct : ctx.read.constraints.requiredTaskOrder.Nodup := free ▸ List.nodup_nil
      obtain ⟨found, other, more⟩ := beamJoint_ne_nil ctx.read.preferences covered filled distinct
        (by simp [free])
      exact more (Option.some.inj (other.symm.trans beam))

theorem owned_singleGroups (count : Nat) : Owned (singleGroups count) := by
  intro i group placed node member
  obtain ⟨index, inside, rfl⟩ := Option.map_eq_some_iff.mp (List.getElem?_map ▸ placed)
  obtain ⟨bound, rfl⟩ := List.getElem?_eq_some_iff.mp inside
  rw [List.mem_singleton.mp member, singleNode, List.getElem_range]

theorem optimizeRouteWritten_ne_mixed {tasks : List WrittenTask} {matrix : RouteMatrix}
    (fit : ∀ task ∈ tasks, task.times.fit departure.hasOffset = true) :
    optimizeRouteWritten model departure tasks matrix ≠ .error .mixedTimes :=
  optimizeWritten_ne_mixed ⟨fit, rfl⟩

theorem optimizeRouteWritten_iff {tasks : List WrittenTask} {matrix : RouteMatrix}
    (complete : CompleteModel model)
    (covered : Covers (compatibilityMatrix matrix) (singleGroups tasks.length)) :
    optimizeRouteWritten model departure tasks matrix ≠ .error .mixedTimes ↔
      ∀ task ∈ tasks, task.times.fit departure.hasOffset = true := by
  constructor
  · intro all
    have sized : (singleGroups tasks.length).length = tasks.length := by simp [singleGroups]
    have counted : (singleGroups tasks.length).length = (tasks.map WrittenTask.task).length := by
      rw [sized, List.length_map]
    have owned := owned_singleGroups tasks.length
    have filled : [] ∉ singleGroups tasks.length := by simp [singleGroups]
    rcases (optimizeWritten_iff complete sized owned covered).mp all with uniform | nothing
    · exact uniform.1
    · exact absurd nothing (searchWritten_ne_nil counted owned covered filled rfl)
  · exact optimizeRouteWritten_ne_mixed

theorem substituteStops_times {provider : MapProvider} {request : PendingReplanRequest}
    {remaining stops : List WrittenStop}
    (answered : substituteStops provider request remaining = some stops) :
    stops.map WrittenStop.times = remaining.map WrittenStop.times := by
  unfold substituteStops at answered
  have paired := mapM_forall₂ answered
  generalize closedIds request.eventType request.eventPayload _ = closed at paired
  clear answered
  induction paired with
  | nil => rfl
  | cons found _ ih =>
      obtain ⟨item, -, rfl⟩ := Option.map_eq_some_iff.mp found
      rw [List.map_cons, List.map_cons, ih]
      rfl

theorem attemptsWritten_head (base : TransportMode) (stops : List WrittenStop) :
    ∃ rest, attemptsWritten base stops = (base, stops) :: rest := ⟨_, rfl⟩

theorem attemptsWritten_subset {base : TransportMode} {stops : List WrittenStop}
    {attempt : TransportMode × List WrittenStop} (member : attempt ∈ attemptsWritten base stops) :
    attempt.2 ⊆ stops := by
  obtain ⟨mode, -, inside⟩ := List.mem_flatMap.mp (List.mem_of_mem_take member)
  obtain ⟨dropOptional, -, kept⟩ := List.mem_filterMap.mp inside
  obtain ⟨active, chosen, rfl⟩ := Option.map_eq_some_iff.mp kept
  unfold activeWritten at chosen
  split at chosen
  · dsimp only at chosen
    split at chosen
    · cases chosen
    · cases chosen
      exact fun _ inside => (List.mem_filter.mp inside).1
  · cases chosen
    exact fun _ => id

theorem replanWritten_iff {provider : MapProvider} {request : PendingReplanRequest}
    {currentTime : Stamp} {snapshot : WrittenSnapshot} {stops : List WrittenStop}
    {matrix : RouteMatrix} (complete : CompleteModel model)
    (occupied : remainingStops request snapshot ≠ [])
    (answered : substituteStops provider request (remainingStops request snapshot) = some stops)
    (measured : provider.routeMatrix (routePoints request.currentLocation stops)
      snapshot.intent.transportMode = some matrix)
    (covered : Covers (compatibilityMatrix matrix) (singleGroups stops.length)) :
    replanWritten model provider request currentTime snapshot ≠ .error .mixedTimes ↔
      ∀ stop ∈ remainingStops request snapshot, stop.times.fit true = true := by
  have times : (∀ stop ∈ remainingStops request snapshot, stop.times.fit true = true) ↔
      ∀ stop ∈ stops, stop.times.fit true = true := by
    rw [← List.forall_mem_map (f := WrittenStop.times) (P := fun times => times.fit true = true),
      ← substituteStops_times answered, List.forall_mem_map]
  rw [times, replanWritten, if_neg (by simpa using occupied), answered]
  constructor
  · intro all
    obtain ⟨rest, attempts⟩ := attemptsWritten_head snapshot.intent.transportMode stops
    rw [orOther_some_bind, attempts] at all
    have first := head_ne_mixed all
    rw [measured, orOther_some_bind] at first
    have fit := (optimizeRouteWritten_iff complete (by rwa [List.length_map])).mp first
    exact fun stop member => fit _ (List.mem_map_of_mem member)
  · intro fit
    apply mapM_ne_mixed
    intro attempt member
    apply bind_ne_error (orOther_ne_mixed _)
    intro matrix _
    apply optimizeRouteWritten_ne_mixed
    intro task inside
    obtain ⟨stop, present, rfl⟩ := List.mem_map.mp inside
    exact fit stop (attemptsWritten_subset member present)

/-- Edges between the origin and the stops. -/
def CoversStops (matrix : RouteMatrix) (stops : List Patch.Stop) : Prop :=
  ∀ i ≤ stops.length, ∀ j ≤ stops.length, (matrix.edge i j).isSome = true

/-- The times that a patched plan is evaluated with are of the kind of its departure. -/
def WrittenIntent.Fits (intent : WrittenIntent) (departure : Stamp) (stops : List Patch.Stop) :
    Prop :=
  (∀ stop ∈ stops, ∀ task, intent.tasks[stop.taskIndex.toNat]? = some task →
    task.times.fit departure.hasOffset = true) ∧
  fits departure.hasOffset intent.constraints.latestReturnTime = true

/-- Stops that cover the tasks are evaluated. -/
theorem evaluate_stops_isSome {ctx : Context} {stops : List Patch.Stop}
    (covers : CoversTasks ctx.tasks stops) (covered : CoversStops ctx.matrix stops) :
    ∃ e, evaluateJointOrder ctx (stops.map fun stop => stop.taskIndex.toNat)
      (selectionOf (positioned stops)) = some e := by
  let groups := (List.range ctx.tasks.length).map fun i => (selectionOf (positioned stops) i).toList
  have points : ∀ i ∈ matrixPoints groups, i ≤ stops.length := by
    intro i member
    rcases List.mem_cons.mp member with rfl | inside
    · exact Nat.zero_le _
    · obtain ⟨node, present, rfl⟩ := List.mem_map.mp inside
      obtain ⟨_, listed, held⟩ := List.mem_flatten.mp present
      obtain ⟨index, -, rfl⟩ := List.mem_map.mp listed
      have found : node ∈ positioned stops :=
        List.mem_reverse.mp (List.mem_of_find?_eq_some (Option.mem_toList.mp held))
      have point := List.mem_map_of_mem (f := CandidateNode.matrixIndex) found
      rw [positioned_matrixIndex, List.mem_range'_1] at point
      omega
  have known (i : Nat) (visited : i ∈ stops.map fun stop => stop.taskIndex.toNat) :
      i < ctx.tasks.length := by
    obtain ⟨stop, member, rfl⟩ := List.mem_map.mp visited
    have valid := covers.valid stop member
    omega
  have distinct := covers.distinct_toNat
  rw [← positioned_taskIndex] at distinct
  have reaches : Covers ctx.matrix groups := by
    intro i source j target
    exact covered i (points i source) j (points j target)
  have chooses : Chosen groups (stops.map fun stop => stop.taskIndex.toNat)
      (selectionOf (positioned stops)) := by
    intro i visited
    have inside := known i visited
    rw [← positioned_taskIndex] at visited
    obtain ⟨node, member, rfl⟩ := List.mem_map.mp visited
    have chosen := selectionOf_of_mem distinct member
    refine ⟨node, [node], chosen, ?_, List.mem_singleton_self _⟩
    simp only [groups]
    rw [List.getElem?_map, List.getElem?_range inside, Option.map_some, chosen]
    rfl
  exact evaluateJointOrder_isSome reaches chooses known

theorem recalculateWritten_iff {provider : MapProvider} {snapshot : WrittenSnapshot}
    {stops : List Patch.Stop} {context : WrittenReplanContext} {origin : Coordinate}
    {matrix : RouteMatrix}
    (starts : context.origin.or snapshot.origin = some origin)
    (departs : context.departureTime.or snapshot.departureTime = some departure)
    (measured : provider.routeMatrix (origin :: stops.map fun stop => stop.poi.location)
      snapshot.intent.transportMode = some matrix) (covered : CoversStops matrix stops) :
    recalculateWritten provider snapshot stops context ≠ .error .mixedTimes ↔
      (CoversTasks (snapshot.intent.tasks.map WrittenTask.task) stops →
        snapshot.intent.Fits departure stops) := by
  let ctx := snapshot.intent.context departure matrix
  rw [recalculateWritten, starts, departs]
  simp only [measured, orOther_some_bind]
  by_cases covers : CoversTasks ctx.read.tasks stops
  · have none := identityConflicts_eq_nil_iff.mpr covers
    have clean := selectStops_conflicts_iff.mpr ⟨covers.valid, covers.distinct⟩
    rw [if_pos none, selectStops_order clean, selectStops_nodes clean]
    obtain ⟨e, judged⟩ := evaluate_stops_isSome covers covered
    have tracks := evaluateWritten_tracks ctx (stops.map fun stop => stop.taskIndex.toNat)
      (selectionOf (positioned stops))
    rw [judged] at tracks
    have coherent : ctx.Coherent (stops.map fun stop => stop.taskIndex.toNat) ↔
        snapshot.intent.Fits departure stops :=
      and_congr List.forall_mem_map Iff.rfl
    have planned : CoversTasks (snapshot.intent.tasks.map WrittenTask.task) stops := covers
    rw [imp_iff_right planned, ← coherent, ← tracks.ne_clash_iff]
    constructor
    · exact first_ne_mixed
    · intro fine
      exact bind_ne_error fine fun _ _ same => by cases same
  · have conflicts := mt identityConflicts_eq_nil_iff.mp covers
    rw [if_neg conflicts]
    exact iff_of_true (fun same => by cases same) fun covers' => absurd covers' covers

/-- No naive time meets an aware one, exactly where the times that are compared have the kind of the
departure: when planning, all of them need an offset, unless an answer replaces them or the search
finds nothing to evaluate; when replanning, those of the stops that are left; when validating a
patched plan, those of its stops and the latest return need what its departure has. -/
theorem time_zones_coherent_iff (calendar : Calendar) (model : Option RoutingSolver)
    (complete : CompleteModel model) :
    (∀ request parsed intent now groups matrix transit,
      runIntent calendar request parsed = .ok intent → groups.length = intent.tasks.length →
      Owned groups → Covers matrix groups →
      (planWritten model transit (plannerContext calendar now intent matrix) groups ≠
          .error .mixedTimes ↔
        request.Offsets parsed ∨
          searchWritten model (plannerContext calendar now intent matrix) groups = .ok [])) ∧
    (∀ (provider : MapProvider) request currentTime snapshot stops matrix,
      remainingStops request snapshot ≠ [] →
      substituteStops provider request (remainingStops request snapshot) = some stops →
      provider.routeMatrix (routePoints request.currentLocation stops)
        snapshot.intent.transportMode = some matrix →
      Covers (compatibilityMatrix matrix) (singleGroups stops.length) →
      (replanWritten model provider request currentTime snapshot ≠ .error .mixedTimes ↔
        ∀ stop ∈ remainingStops request snapshot, stop.times.fit true = true)) ∧
    (∀ (provider : MapProvider) snapshot stops context origin departure matrix,
      context.origin.or snapshot.origin = some origin →
      context.departureTime.or snapshot.departureTime = some departure →
      provider.routeMatrix (origin :: stops.map fun stop => stop.poi.location)
        snapshot.intent.transportMode = some matrix →
      CoversStops matrix stops →
      (recalculateWritten provider snapshot stops context ≠ .error .mixedTimes ↔
        (CoversTasks (snapshot.intent.tasks.map WrittenTask.task) stops →
          snapshot.intent.Fits departure stops))) := by
  refine ⟨?_, ?_, ?_⟩
  · intro request parsed intent now groups matrix transit ran sized owned covered
    rw [← runIntent_offsets ran]
    exact planWritten_iff complete sized owned covered
  · intro provider request currentTime snapshot stops matrix occupied answered measured covered
    exact replanWritten_iff complete occupied answered measured covered
  · intro provider snapshot stops context origin departure matrix starts departs measured covered
    exact recalculateWritten_iff starts departs measured covered

/-! A museum with a deadline, in Shanghai, where the clock is eight hours ahead of UTC. -/

theorem TaskTimes.Of.reading (times : TaskTimes) (description : String) : times.Of {
    description := description
    earliestArrival := times.earliestArrival.map Stamp.time
    deadline := times.deadline.map Stamp.time
    appointmentTime := times.appointmentTime.map Stamp.time } :=
  ⟨rfl, rfl, rfl⟩

def dueTask (deadline : Stamp) : WrittenTask := ⟨_, _, .reading { deadline := some deadline } "参观"⟩

theorem unlimited_written :
    ({} : HardConstraints).latestReturnTime = (none : Option Stamp).map Stamp.time := rfl

def dueIntent (deadline : Stamp) : WrittenIntent where
  tasks := [dueTask deadline]
  constraints := { written := unlimited_written }

def dueStop (deadline : Stamp) : WrittenStop where
  stop :=
    { taskIndex := 0
      task := (dueTask deadline).task
      poi := { id := "A", location := ⟨0, 0⟩ } }
  times := (dueTask deadline).times
  written := (dueTask deadline).written

/-- The plan that leaves at the time. -/
def dueSnapshot (departure deadline : Stamp) : WrittenSnapshot where
  origin := some ⟨0, 0⟩
  departureTime := some departure
  intent := dueIntent deadline
  stops := [dueStop deadline]

def eastEight : Calendar where
  fromIsoFormat _ := none
  shanghai instant := ⟨instant - 28800 * 1000000, 28800⟩

def rainRequest : PendingReplanRequest := { currentLocation := ⟨0, 0⟩, currentTime := ⟨0, 0⟩ }

/-- An answered appointment takes the place of a naive deadline; a stored plan stays with the kind
of its departure. -/
theorem time_zones_coherent_iff_answered :
    (∃ intent, runIntent eastEight
        { taskFieldOverrides := [(some 0, some (.time (.naive 0)))] } (dueIntent (.naive 0)) =
          .ok intent ∧
      planWritten none (fun _ => none) (plannerContext eastEight ⟨0, 0⟩ intent lineMatrix)
        (lineGroups 1) ≠ .error .mixedTimes) ∧
    replanWritten none evenProvider rainRequest (.naive 0)
      (dueSnapshot (.naive 0) (.aware ⟨0, 0⟩)) ≠ .error .mixedTimes ∧
    recalculateWritten evenProvider (dueSnapshot (.naive 0) (.naive 0))
      [(dueStop (.naive 0)).stop] {} ≠ .error .mixedTimes := by
  have complete : CompleteModel none := fun _ absent => by cases absent
  obtain ⟨planning, replanning, validation⟩ := time_zones_coherent_iff eastEight none complete
  refine ⟨⟨_, rfl, ?_⟩, ?_, ?_⟩
  · apply (planning { taskFieldOverrides := [(some 0, some (.time (.naive 0)))] }
      (dueIntent (.naive 0)) _ ⟨0, 0⟩ (lineGroups 1) lineMatrix (fun _ => none) rfl rfl
      (owned_singleGroups 1) ?_).mpr
    · left
      constructor
      · intro index task present
        cases index with
        | zero => exact .inl (by decide +kernel)
        | succ index => cases present
      · rfl
    · unfold Covers
      decide +kernel
  · apply (replanning evenProvider rainRequest (.naive 0) (dueSnapshot (.naive 0) (.aware ⟨0, 0⟩))
      [dueStop (.aware ⟨0, 0⟩)] _ ?_ ?_ rfl ?_).mpr
    · intro stop member
      obtain rfl := List.mem_singleton.mp member
      rfl
    · exact List.cons_ne_nil _ _
    · with_unfolding_all rfl
    · unfold Covers
      decide +kernel
  · apply (validation evenProvider (dueSnapshot (.naive 0) (.naive 0)) [(dueStop (.naive 0)).stop]
      {} ⟨0, 0⟩ (.naive 0) _ rfl rfl rfl ?_).mpr
    · intro _
      refine ⟨?_, rfl⟩
      intro stop member task present
      obtain rfl := List.mem_singleton.mp member
      cases present
      rfl
    · unfold CoversStops
      decide +kernel

/-- Whether the computation met a naive time beside an aware one. -/
def mixes {α : Type} : Except EvaluationError α → Bool
  | .error .mixedTimes => true
  | _ => false

theorem mixes_iff {α : Type} {x : Except EvaluationError α} :
    mixes x = true ↔ x = .error .mixedTimes := by
  constructor
  · intro mixed
    unfold mixes at mixed
    split at mixed
    · rfl
    · cases mixed
  · rintro rfl
    rfl

/-- A deadline without an offset meets the departure, which has one, on all three ways. -/
theorem deadline_without_offset :
    (∃ intent, runIntent eastEight {} (dueIntent (.naive 0)) = .ok intent ∧
      planWritten none (fun _ => none) (plannerContext eastEight ⟨0, 0⟩ intent lineMatrix)
        (lineGroups 1) = .error .mixedTimes) ∧
    replanWritten none evenProvider rainRequest (.aware ⟨0, 0⟩)
      (dueSnapshot (.aware ⟨0, 0⟩) (.naive 0)) = .error .mixedTimes ∧
    recalculateWritten evenProvider (dueSnapshot (.aware ⟨0, 0⟩) (.naive 0))
      [(dueStop (.naive 0)).stop] {} = .error .mixedTimes := by
  refine ⟨⟨_, rfl, mixes_iff.mp ?_⟩, mixes_iff.mp ?_, mixes_iff.mp ?_⟩
  · decide +kernel
  · decide +kernel
  · decide +kernel

end MapGo.Planning
