import MapGo.Companion.Consent
import MapGo.Patch.Replan

/-! States of a trip and the events that move it. Events choose the next state without a look at the
allowed transitions; a table of the states in which each event keeps to them stands beside. -/
namespace MapGo.Companion

open MapGo.Patch

/-- `ALLOWED_TRANSITIONS` -/
def allowedTransitions : TripState → List TripState
  | .idle => [.discovering, .planReady, .cancelled]
  | .discovering => [.clarifying, .planning, .cancelled]
  | .clarifying => [.planning, .cancelled]
  | .planning => [.planReady, .clarifying, .cancelled]
  | .planReady => [.activeTrip, .cancelled]
  | .activeTrip => [.paused, .offRoute, .atRisk, .completed, .cancelled]
  | .paused => [.activeTrip, .completed, .cancelled]
  | .offRoute => [.replanning, .activeTrip, .completed, .cancelled]
  | .atRisk => [.replanning, .activeTrip, .completed, .cancelled]
  | .replanning => [.activeTrip, .atRisk, .completed, .cancelled]
  | .completed => []
  | .cancelled => []

def tripStateValue : TripState → String
  | .idle => "IDLE"
  | .discovering => "DISCOVERING"
  | .clarifying => "CLARIFYING"
  | .planning => "PLANNING"
  | .planReady => "PLAN_READY"
  | .activeTrip => "ACTIVE_TRIP"
  | .paused => "PAUSED"
  | .offRoute => "OFF_ROUTE"
  | .atRisk => "AT_RISK"
  | .replanning => "REPLANNING"
  | .completed => "COMPLETED"
  | .cancelled => "CANCELLED"

def validateTransition (current target : TripState) : Except AppError Unit :=
  if target ∈ allowedTransitions current then .ok ()
  else .error ⟨409, "TRIP_STATE_TRANSITION_DENIED",
    "不能从 " ++ tripStateValue current ++ " 转换到 " ++ tripStateValue target⟩

inductive TripEventType where
  | locationUpdated | scheduleDelay | trafficChanged | weatherAlert | poiStatusChanged
  | userOffRoute | deadlineRisk | stopCompleted | stopSkipped | userPaused | userResumed
  | tripCompleted
  deriving DecidableEq, Repr

/-- The fields of an event's payload that the decision reads. -/
structure TripEventPayload where
  delayMinutes : Option Int := none
  extraMinutes : Option Int := none
  severity : Option String := none
  deriving DecidableEq, Repr

inductive ImpactLevel where
  | none | high | critical
  deriving DecidableEq, Repr

structure EventProposal where
  action : String
  reason : String
  requiresConfirmation : Bool
  deriving DecidableEq, Repr

structure EventDecision where
  nextState : TripState
  impactLevel : ImpactLevel
  shouldNotify : Bool
  reason : String
  proposals : List EventProposal
  deriving DecidableEq, Repr

def eventProposals (reason : String) : List EventProposal :=
  [⟨"recalculate_remaining_plan", reason, false⟩,
    ⟨"create_plan_patch", "如果重算发现不可行，只生成待确认补丁，不覆盖正式计划", true⟩]

def TripEventPayload.delay (payload : TripEventPayload) : Int := max 0 (payload.delayMinutes.getD 0)

def TripEventPayload.extra (payload : TripEventPayload) : Int := max 0 (payload.extraMinutes.getD 0)

def TripEventPayload.severe (payload : TripEventPayload) : Bool :=
  let severity := match payload.severity with
    | none => "low"
    | some "" => "low"
    | some text => text.toLower
  severity ∈ ["high", "severe", "extreme"]

/-- Impact, next state and reason of an event. -/
def eventOutcome (current : TripState) (type : TripEventType) (payload : TripEventPayload) :
    ImpactLevel × TripState × String :=
  let unaffected := (.none, current, "事件不影响当前硬约束")
  match type with
  | .userOffRoute => (.high, .offRoute, "检测到用户偏离当前路线")
  | .deadlineRisk | .poiStatusChanged => (.critical, .atRisk, "事件可能破坏硬约束")
  | .scheduleDelay =>
      if 10 ≤ payload.delay then
        (if 30 ≤ payload.delay then .critical else .high, .atRisk,
          "当前行程延误 " ++ toString payload.delay ++ " 分钟，需要重新验证剩余计划")
      else unaffected
  | .trafficChanged =>
      if 10 ≤ payload.extra then
        (.high, .atRisk, "路况增加约 " ++ toString payload.extra ++ " 分钟")
      else unaffected
  | .weatherAlert => if payload.severe then (.high, .atRisk, "天气预警影响户外行程") else unaffected
  | .userPaused => (.none, .paused, "用户暂停行程")
  | .userResumed => (.none, .activeTrip, "用户恢复行程")
  | .tripCompleted => (.none, .completed, "行程已完成")
  | .locationUpdated | .stopCompleted | .stopSkipped => unaffected

def evaluateTripEvent (current : TripState) (type : TripEventType) (payload : TripEventPayload)
    (lastNotificationAt : Option Instant) (cooldownMinutes : Nat) (now : Instant) : EventDecision :=
  let cooldownActive := lastNotificationAt.any fun last => now - last < minutesDelta cooldownMinutes
  let (impact, nextState, reason) := eventOutcome current type payload
  { nextState := nextState
    impactLevel := impact
    shouldNotify := impact = .critical || (impact = .high && !cooldownActive)
    reason := reason
    proposals := if impact = .none then [] else eventProposals reason }

/-- The trip is over. -/
def ended (state : TripState) : Bool := state = .completed || state = .cancelled

/-- The events that put the plan at risk. -/
def raisesRisk (type : TripEventType) (payload : TripEventPayload) : Bool :=
  match type with
  | .deadlineRisk | .poiStatusChanged => true
  | .scheduleDelay => 10 ≤ payload.delay
  | .trafficChanged => 10 ≤ payload.extra
  | .weatherAlert => payload.severe
  | _ => false

/-- Where an event sends a trip; the others leave every state as it is. -/
def eventTarget (type : TripEventType) (payload : TripEventPayload) : Option TripState :=
  if raisesRisk type payload then some .atRisk
  else match type with
    | .userOffRoute => some .offRoute
    | .userPaused => some .paused
    | .userResumed => some .activeTrip
    | .tripCompleted => some .completed
    | _ => none

/-- The states from which an event keeps to the allowed transitions. -/
def eventSuits (type : TripEventType) (payload : TripEventPayload) (state : TripState) : Bool :=
  match eventTarget type payload with
  | some .atRisk => state ∈ [.activeTrip, .atRisk, .replanning]
  | some .offRoute => state ∈ [.activeTrip, .offRoute]
  | some .paused => state ∈ [.activeTrip, .paused]
  | some .activeTrip =>
      state ∈ [.planReady, .activeTrip, .paused, .offRoute, .atRisk, .replanning]
  | some .completed => state ∈ [.activeTrip, .paused, .offRoute, .atRisk, .replanning, .completed]
  | _ => true

/-- A move that the state machine has, or none. -/
def Moves (old new : TripState) : Prop := new = old ∨ new ∈ allowedTransitions old

instance (old new : TripState) : Decidable (Moves old new) := inferInstanceAs (Decidable (_ ∨ _))

variable {type : TripEventType} {payload : TripEventPayload} {state : TripState}

@[simp] theorem evaluateTripEvent_nextState {last : Option Instant} {cooldown : Nat} {now : Instant} :
    (evaluateTripEvent state type payload last cooldown now).nextState =
      (eventOutcome state type payload).2.1 := rfl

theorem nextState_eq :
    (eventOutcome state type payload).2.1 = (eventTarget type payload).getD state := by
  cases type with
  | scheduleDelay =>
      by_cases late : 10 ≤ payload.delay <;> simp [eventOutcome, eventTarget, raisesRisk, late]
  | trafficChanged =>
      by_cases late : 10 ≤ payload.extra <;> simp [eventOutcome, eventTarget, raisesRisk, late]
  | weatherAlert =>
      by_cases severe : payload.severe <;> simp [eventOutcome, eventTarget, raisesRisk, severe]
  | _ => rfl

theorem eventTarget_mem : eventTarget type payload ∈
    [none, some .atRisk, some .offRoute, some .paused, some .activeTrip, some .completed] := by
  unfold eventTarget
  split
  · decide
  · cases type <;> simp

/-- The table is exact: these are the states whose move the machine has. -/
theorem eventSuits_iff :
    eventSuits type payload state = true ↔ Moves state (eventOutcome state type payload).2.1 := by
  have targets := @eventTarget_mem type payload
  rw [nextState_eq, eventSuits]
  generalize eventTarget type payload = target at targets
  simp only [List.mem_cons, List.not_mem_nil, or_false] at targets
  rcases targets with rfl | rfl | rfl | rfl | rfl | rfl <;> cases state <;> decide

end MapGo.Companion
