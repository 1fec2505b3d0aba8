import MapGo.Tracking
import MapGo.Route.Simulation
import MapGo.Planning.Schema

/-! Route evaluation on times as they were written, with an offset or without. The clock of an
evaluation compares and subtracts them one after the other; a naive time beside an aware one ends
it in a `TypeError`. Where all times are of a kind, the clock shows what the evaluation reports. -/
namespace MapGo.Planning

open MapGo.Route Tracking

/-- How an evaluation ends without a result. -/
inductive EvaluationError where
  /-- The `TypeError` of a naive time beside an aware one. -/
  | mixedTimes
  | other
  deriving DecidableEq

def orOther {α : Type} : Option α → Except EvaluationError α
  | some value => .ok value
  | none => .error .other

namespace Stamp

/-- `t.tzinfo is not None` -/
def hasOffset : Stamp → Bool
  | .naive _ => false
  | .aware _ => true

/-- The time, with a naive one read as UTC. -/
def time : Stamp → DateTime
  | .naive instant => ⟨instant, 0⟩
  | .aware time => time

def add (delta : Int) : Stamp → Stamp
  | .naive instant => .naive (instant + delta)
  | .aware time => .aware (time.add delta)

def sub (delta : Int) : Stamp → Stamp
  | .naive instant => .naive (instant - delta)
  | .aware time => .aware (time.sub delta)

/-- `left > right` -/
def later (left right : Stamp) : Except EvaluationError Bool :=
  match left.after right with
  | some answer => .ok answer
  | none => .error .mixedTimes

/-- `left - right` -/
def minus : Stamp → Stamp → Except EvaluationError Int
  | .naive left, .naive right => .ok (left - right)
  | .aware left, .aware right => .ok (left.instant - right.instant)
  | _, _ => .error .mixedTimes

end Stamp

/-- The times of a task as they were written. -/
structure TaskTimes where
  earliestArrival : Option Stamp := none
  deadline : Option Stamp := none
  appointmentTime : Option Stamp := none
  deriving DecidableEq

/-- The task has these times. -/
structure TaskTimes.Of (times : TaskTimes) (task : PlanningTask) : Prop where
  earliestArrival : task.earliestArrival = times.earliestArrival.map Stamp.time
  deadline : task.deadline = times.deadline.map Stamp.time
  appointmentTime : task.appointmentTime = times.appointmentTime.map Stamp.time

/-- A task with its times as they were written. -/
structure WrittenTask where
  task : PlanningTask
  times : TaskTimes
  written : times.Of task

/-- What an evaluation is given, with its times as they were written. -/
structure WrittenContext where
  read : Context
  departure : Stamp
  tasks : List WrittenTask
  latestReturnTime : Option Stamp
  departs : read.departure = departure.time
  plans : read.tasks = tasks.map WrittenTask.task
  returns : read.constraints.latestReturnTime = latestReturnTime.map Stamp.time

/-- The loop variables of `evaluate_joint_order` that times depend on. -/
structure Clock where
  cursor : Stamp
  previous : Nat := 0
  arrivals : List Stamp := []
  departures : List Stamp := []
  selectedNodes : List CandidateNode := []

/-- `if cursor < opening: cursor = opening` -/
def wait (cursor opening : Stamp) : Except EvaluationError Stamp := do
  let early ← opening.later cursor
  return if early then opening else cursor

def keepAppointment (times : TaskTimes) (cursor : Stamp) : Except EvaluationError Stamp :=
  match times.appointmentTime with
  | some appointment => do
      let missed ← cursor.later appointment
      if missed then return cursor else wait cursor appointment
  | none => .ok cursor

def awaitOpening (times : TaskTimes) (cursor : Stamp) : Except EvaluationError Stamp :=
  match times.earliestArrival with
  | some earliest => wait cursor earliest
  | none => .ok cursor

/-- Arrival after waiting for the appointment and the earliest arrival. -/
def TaskTimes.arrival (times : TaskTimes) (cursor : Stamp) : Except EvaluationError Stamp := do
  let cursor ← keepAppointment times cursor
  awaitOpening times cursor

/-- Whether a limit less the buffer is exceeded; without a limit nothing is compared. -/
def exceeds (cursor : Stamp) (limit : Option Stamp) (buffer : Int) : Except EvaluationError Bool :=
  match limit with
  | some limit => cursor.later (limit.sub buffer)
  | none => .ok false

/-- The times of one stop. -/
def Clock.stop (ctx : WrittenContext) (clock : Clock) (task : WrittenTask) (node : CandidateNode)
    (edge : RouteEdge) : Except EvaluationError Clock := do
  let arrived ← task.times.arrival (clock.cursor.add (secondsDelta edge.durationSeconds))
  let _ ← exceeds arrived task.times.deadline ctx.read.buffer
  let left := arrived.add (minutesDelta
    (max task.task.serviceDurationMinutes (task.task.minServiceDurationMinutes.getD 0)))
  return {
    cursor := left
    previous := node.matrixIndex
    arrivals := clock.arrivals ++ [arrived]
    departures := clock.departures ++ [left]
    selectedNodes := clock.selectedNodes ++ [node] }

/-- One iteration of the loop over the order, as far as times go. -/
def visitClock (ctx : WrittenContext) (selectedByTask : Nat → Option CandidateNode) (clock : Clock)
    (taskIndex : Nat) : Except EvaluationError Clock := do
  let node ← orOther (selectedByTask taskIndex)
  let edge ← orOther (ctx.read.matrix.edge clock.previous node.matrixIndex)
  let task ← orOther ctx.tasks[taskIndex]?
  clock.stop ctx task node edge

/-- The leg back to the origin. -/
def clockHome (ctx : WrittenContext) (clock : Clock) : Except EvaluationError Clock :=
  if ctx.read.constraints.mustReturnToOrigin ∧ clock.selectedNodes ≠ [] then do
    let edge ← orOther (ctx.read.matrix.edge clock.previous 0)
    return { clock with cursor := clock.cursor.add (secondsDelta edge.durationSeconds) }
  else .ok clock

/-- `evaluate_joint_order`, as far as times go. -/
def evaluateClock (ctx : WrittenContext) (order : List Nat)
    (selectedByTask : Nat → Option CandidateNode) : Except EvaluationError Clock := do
  let clock ← order.foldlM (visitClock ctx selectedByTask) { cursor := ctx.departure }
  let clock ← clockHome ctx clock
  let _ ← clock.cursor.minus ctx.departure
  let _ ← exceeds clock.cursor ctx.latestReturnTime ctx.read.buffer
  return clock

/-- The time, if there is one, is of the kind. -/
def fits (aware : Bool) (time : Option Stamp) : Bool := time.all fun time => time.hasOffset = aware

def TaskTimes.fit (times : TaskTimes) (aware : Bool) : Bool :=
  fits aware times.appointmentTime && fits aware times.earliestArrival && fits aware times.deadline

namespace WrittenContext

/-- The kind of the departure, which the clock keeps. -/
def aware (ctx : WrittenContext) : Bool := ctx.departure.hasOffset

/-- Every time that an order meets is of the kind of the departure. -/
def Coherent (ctx : WrittenContext) (order : List Nat) : Prop :=
  (∀ taskIndex ∈ order, ∀ task, ctx.tasks[taskIndex]? = some task →
    task.times.fit ctx.aware = true) ∧ fits ctx.aware ctx.latestReturnTime = true

end WrittenContext

/-! ### The clock tracks the evaluation -/

/-- The stamp is of the kind and reads as the time. -/
def Reads (aware : Bool) (stamp : Stamp) (time : DateTime) : Prop :=
  stamp.hasOffset = aware ∧ stamp.time = time

/-- The clock of a walk. -/
structure Clock.Shows (aware : Bool) (clock : Clock) (walk : Walk) : Prop where
  cursor : Reads aware clock.cursor walk.cursor
  previous : clock.previous = walk.previous
  arrivals : clock.arrivals.map Stamp.time = walk.arrivals
  departures : clock.departures.map Stamp.time = walk.departures
  selectedNodes : clock.selectedNodes = walk.selectedNodes

variable {aware : Bool} {stamp : Stamp} {time : DateTime} {task : WrittenTask}
  {ctx : WrittenContext} {selected : Nat → Option CandidateNode} {clock : Clock} {walk : Walk}
  {order : List Nat} {limit : Option Stamp}

theorem Reads.add (reads : Reads aware stamp time) (delta : Int) :
    Reads aware (stamp.add delta) (time.add delta) := by
  obtain ⟨rfl, rfl⟩ := reads
  cases stamp <;> exact ⟨rfl, rfl⟩

@[simp] theorem Stamp.hasOffset_sub (delta : Int) :
    (stamp.sub delta).hasOffset = stamp.hasOffset := by
  cases stamp <;> rfl

theorem other_lost {α β : Type} {R : α → β → Prop} {fits : Prop} :
    Tracks EvaluationError.mixedTimes R fits (.error .other) none := .lost (by decide)

theorem orOther_some_bind {α β : Type} (value : α) (f : α → Except EvaluationError β) :
    (orOther (some value) >>= f) = f value := rfl

theorem later_tracks (left right : Stamp) :
    Tracks .mixedTimes (· = ·) (left.hasOffset = right.hasOffset) (left.later right)
      (some (decide (right.time.instant < left.time.instant))) := by
  cases left <;> cases right
  · exact .follows rfl rfl
  · exact .clashes Bool.false_ne_true
  · exact .clashes Bool.false_ne_true.symm
  · exact .follows rfl rfl

theorem wait_tracks (reads : Reads aware stamp time) (opening : Stamp) :
    Tracks .mixedTimes (Reads aware) (opening.hasOffset = aware) (wait stamp opening)
      (some (if time.instant < opening.time.instant then opening.time else time)) := by
  obtain ⟨rfl, rfl⟩ := reads
  have bound : Tracks .mixedTimes (Reads stamp.hasOffset)
      (opening.hasOffset = stamp.hasOffset ∧ True) (wait stamp opening) ((some (decide (stamp.time.instant < opening.time.instant))).bind
        fun early => some (if early then opening.time else stamp.time)) := by
    apply (later_tracks opening stamp).bind
    rintro same early _ - rfl
    apply Tracks.of_related
    cases early
    · exact ⟨rfl, rfl⟩
    · exact ⟨same, rfl⟩
  simpa using bound

/-- The time after waiting for an opening, if there is one. -/
def delayed (opening : Option DateTime) (time : DateTime) : DateTime :=
  match opening with
  | some opening => if time.instant < opening.instant then opening else time
  | none => time

theorem arrival_eq (task : PlanningTask) (time : DateTime) :
    arrival task time = delayed task.earliestArrival (delayed task.appointmentTime time) := rfl

theorem keepAppointment_tracks (reads : Reads aware stamp time) (times : TaskTimes) :
    Tracks .mixedTimes (Reads aware) (fits aware times.appointmentTime = true)
      (keepAppointment times stamp)
      (some (delayed (times.appointmentTime.map Stamp.time) time)) := by
  rw [keepAppointment]
  cases times.appointmentTime with
  | none => exact (Tracks.of_related reads).congr (by simp [fits])
  | some appointment =>
      have bound : Tracks .mixedTimes (Reads aware)
          (stamp.hasOffset = appointment.hasOffset ∧ appointment.hasOffset = aware)
          (do let missed ← stamp.later appointment
              if missed then return stamp else wait stamp appointment)
          ((some (decide (appointment.time.instant < stamp.time.instant))).bind fun missed =>
            some (if time.instant < appointment.time.instant then appointment.time else time)) := by
        apply (later_tracks stamp appointment).bind
        rintro same missed _ found rfl
        have kind : appointment.hasOffset = aware := same.symm.trans reads.1
        cases missed with
        | false => exact wait_tracks reads appointment
        | true =>
            have late := of_decide_eq_true (Option.some.inj found)
            rw [reads.2] at late
            rw [if_neg late.not_gt]
            exact .follows kind reads
      apply bound.congr
      rw [reads.1]
      simp [fits, eq_comm]

theorem awaitOpening_tracks (reads : Reads aware stamp time) (times : TaskTimes) :
    Tracks .mixedTimes (Reads aware) (fits aware times.earliestArrival = true)
      (awaitOpening times stamp) (some (delayed (times.earliestArrival.map Stamp.time) time)) := by
  rw [awaitOpening]
  cases times.earliestArrival with
  | none => exact (Tracks.of_related reads).congr (by simp [fits])
  | some earliest => exact (wait_tracks reads earliest).congr (by simp [fits])

theorem arrival_tracks (reads : Reads aware stamp time) (task : WrittenTask) :
    Tracks .mixedTimes (Reads aware)
      (fits aware task.times.appointmentTime = true ∧ fits aware task.times.earliestArrival = true)
      (task.times.arrival stamp) (some (arrival task.task time)) := by
  rw [arrival_eq, task.written.appointmentTime, task.written.earliestArrival]
  have kept := keepAppointment_tracks reads task.times
  exact kept.bind fun _ _ _ _ reads => awaitOpening_tracks reads task.times

theorem exceeds_tracks (reads : Reads aware stamp time) (limit : Option Stamp) (buffer : Int) :
    ∃ late, Tracks .mixedTimes (· = ·) (fits aware limit = true) (exceeds stamp limit buffer)
      (some late) := by
  cases limit with
  | none => exact ⟨false, (Tracks.of_related rfl).congr (by simp [fits])⟩
  | some limit =>
      refine ⟨_, (later_tracks stamp (limit.sub buffer)).congr ?_⟩
      rw [reads.1, Stamp.hasOffset_sub]
      simp [fits, eq_comm]

/-- One stop: the clock clashes only on the times of its task. -/
theorem stop_tracks (seen : clock.Shows ctx.aware walk) (task : WrittenTask) (node : CandidateNode)
    (edge : RouteEdge) :
    Tracks .mixedTimes (Clock.Shows ctx.aware) (task.times.fit ctx.aware = true)
      (clock.stop ctx task node edge) (some (walk.passed ctx.read task.task node edge)) := by
  let after := walk.passed ctx.read task.task node edge
  have arrived := arrival_tracks (seen.cursor.add (secondsDelta edge.durationSeconds)) task
  apply Tracks.congr (p := (fits ctx.aware task.times.appointmentTime = true ∧
    fits ctx.aware task.times.earliestArrival = true) ∧
      fits ctx.aware task.times.deadline = true ∧ True)
  · apply arrived.bind (g := fun _ => some after)
    intro _ stamp time found reads
    obtain rfl := Option.some.inj found
    obtain ⟨late, compared⟩ := exceeds_tracks reads task.times.deadline ctx.read.buffer
    have left := reads.add (minutesDelta (max task.task.serviceDurationMinutes
      (task.task.minServiceDurationMinutes.getD 0)))
    apply compared.bind (g := fun _ => some after)
    intro _ _ _ _ _
    apply Tracks.of_related
    constructor
    · exact left
    · rfl
    · rw [List.map_append, seen.arrivals, List.map_singleton, reads.2]
      rfl
    · rw [List.map_append, seen.departures, List.map_singleton, left.2]
      rfl
    · exact congrArg (· ++ [node]) seen.selectedNodes
  · simp [TaskTimes.fit]

theorem visitClock_tracks (seen : clock.Shows ctx.aware walk) (taskIndex : Nat) :
    Tracks .mixedTimes (Clock.Shows ctx.aware)
      (∀ task, ctx.tasks[taskIndex]? = some task → task.times.fit ctx.aware = true)
      (visitClock ctx selected clock taskIndex) (visit ctx.read selected walk taskIndex) := by
  have tasks : ctx.read.tasks[taskIndex]? = (ctx.tasks[taskIndex]?).map WrittenTask.task := by
    rw [ctx.plans, List.getElem?_map]
  simp only [visitClock, visit, tasks, ← seen.previous]
  cases selected taskIndex with
  | none => exact other_lost
  | some node =>
      simp only [orOther_some_bind, Option.bind_eq_bind, Option.bind_some]
      cases ctx.read.matrix.edge clock.previous node.matrixIndex with
      | none => exact other_lost
      | some edge =>
          cases ctx.tasks[taskIndex]? with
          | none => exact other_lost
          | some task => exact (stop_tracks seen task node edge).congr (by simp)

theorem clockHome_tracks (seen : clock.Shows ctx.aware walk) :
    Tracks .mixedTimes (Clock.Shows ctx.aware) True (clockHome ctx clock)
      (returnToOrigin ctx.read walk) := by
  simp only [clockHome, returnToOrigin, seen.selectedNodes, ← seen.previous]
  split
  · cases ctx.read.matrix.edge clock.previous 0 with
    | none => exact other_lost
    | some edge =>
        apply Tracks.of_related
        exact ⟨seen.cursor.add _, rfl, seen.arrivals, seen.departures, rfl⟩
  · exact .of_related seen

/-- The clock of a finished evaluation. -/
def Clock.Reports (clock : Clock) (e : RouteEvaluation) : Prop :=
  clock.arrivals.map Stamp.time = e.arrivals ∧ clock.departures.map Stamp.time = e.departures

theorem minus_tracks (left right : Stamp) : ∃ difference,
    Tracks .mixedTimes (· = ·) (left.hasOffset = right.hasOffset) (left.minus right)
      (some difference) := by
  cases left <;> cases right
  · exact ⟨_, .follows rfl rfl⟩
  · exact ⟨0, .clashes Bool.false_ne_true⟩
  · exact ⟨0, .clashes Bool.false_ne_true.symm⟩
  · exact ⟨_, .follows rfl rfl⟩

/-- The evaluation meets a naive time beside an aware one only in an order that is not coherent; in
a coherent one its clock shows the reported times. -/
theorem evaluateClock_tracks (ctx : WrittenContext) (order : List Nat)
    (selected : Nat → Option CandidateNode) :
    Tracks .mixedTimes Clock.Reports (ctx.Coherent order) (evaluateClock ctx order selected)
      (evaluateJointOrder ctx.read order selected) := by
  have start : Clock.Shows ctx.aware { cursor := ctx.departure } (Walk.start ctx.read order) :=
    ⟨⟨rfl, ctx.departs.symm⟩, rfl, rfl, rfl, rfl⟩
  have step (taskIndex : Nat) (clock : Clock) (walk : Walk) (seen : clock.Shows ctx.aware walk) :
      Tracks .mixedTimes (Clock.Shows ctx.aware)
        (∀ task, ctx.tasks[taskIndex]? = some task → task.times.fit ctx.aware = true)
        (visitClock ctx selected clock taskIndex) (visit ctx.read selected walk taskIndex) :=
    visitClock_tracks seen taskIndex
  have walked := Tracks.foldlM step order start
  apply Tracks.congr (p := (∀ taskIndex ∈ order, ∀ task, ctx.tasks[taskIndex]? = some task →
    task.times.fit ctx.aware = true) ∧ True ∧ True ∧
      fits ctx.aware ctx.latestReturnTime = true ∧ True)
  · apply walked.bind
    intro _ clock walk _ seen
    apply (clockHome_tracks seen).bind
    intro _ clock walk _ seen
    obtain ⟨elapsed, subtracted⟩ := minus_tracks clock.cursor ctx.departure
    apply (subtracted.congr (iff_true_intro seen.cursor.1)).bind
      (g := fun _ => some (walk.report ctx.read order))
    intro _ _ _ _ _
    obtain ⟨late, compared⟩ := exceeds_tracks seen.cursor ctx.latestReturnTime ctx.read.buffer
    apply compared.bind (g := fun _ => some (walk.report ctx.read order))
    intro _ _ _ _ _
    exact .of_related ⟨seen.arrivals, seen.departures⟩
  · simp [WrittenContext.Coherent]

/-- `evaluate_joint_order` on written times. -/
def evaluateWritten (ctx : WrittenContext) (order : List Nat)
    (selectedByTask : Nat → Option CandidateNode) : Except EvaluationError RouteEvaluation := do
  let _ ← evaluateClock ctx order selectedByTask
  orOther (evaluateJointOrder ctx.read order selectedByTask)

theorem evaluateWritten_tracks (ctx : WrittenContext) (order : List Nat)
    (selected : Nat → Option CandidateNode) :
    Tracks .mixedTimes (· = ·) (ctx.Coherent order) (evaluateWritten ctx order selected)
      (evaluateJointOrder ctx.read order selected) := by
  have clock := evaluateClock_tracks ctx order selected
  rw [evaluateWritten]
  cases judged : evaluateJointOrder ctx.read order selected with
  | none =>
      rw [judged] at clock
      cases ran : evaluateClock ctx order selected with
      | ok shown =>
          rw [ran] at clock
          cases clock
      | error error =>
          rw [ran] at clock
          cases clock with
          | lost other => exact .lost other
          | clashes unfit => exact .clashes unfit
  | some e =>
      rw [judged] at clock
      apply (clock.bind (g := fun _ => some e) fun _ _ _ _ _ => ?_).congr (and_iff_left trivial)
      exact .of_related rfl

end MapGo.Planning
