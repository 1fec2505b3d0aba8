import MapGo.Transition

/-! The circuit breaker of the map provider under concurrent calls. A call asks the circuit once,
then waits for the semaphore and makes its attempts. Every step of a call is a moment of its own,
so the steps of the calls of a matrix interleave in any order. -/
namespace MapGo.Maps

open Transition

structure CircuitSettings where
  mapMaxConcurrency : Nat := 8
  upstreamMaxRetries : Int := 2
  circuitBreakerFailureThreshold : Int := 5
  circuitBreakerRecoverySeconds : ℚ := 30

/-- The rounds of `range(upstream_max_retries + 1)`. -/
def CircuitSettings.attempts (settings : CircuitSettings) : Nat :=
  (settings.upstreamMaxRetries + 1).toNat

structure Circuit where
  failureCount : Nat := 0
  circuitOpenedAt : Option ℚ := none
  deriving DecidableEq

/-- How `_before_request` lets a call through, or does not. -/
inductive Admission where
  | passed | reset | rejected
  deriving DecidableEq, Repr

namespace Circuit
variable (settings : CircuitSettings) (now : ℚ) (circuit : Circuit)

def beforeRequest : Admission × Circuit :=
  match circuit.circuitOpenedAt with
  | none => (.passed, circuit)
  | some opened =>
      if settings.circuitBreakerRecoverySeconds ≤ now - opened then (.reset, {})
      else (.rejected, circuit)

def recordSuccess : Circuit := {}

def recordFailure : Circuit :=
  let failureCount := circuit.failureCount + 1
  if settings.circuitBreakerFailureThreshold ≤ failureCount then ⟨failureCount, some now⟩
  else { circuit with failureCount }

/-- The circuit is open and its recovery period has not elapsed. -/
def isOpen : Bool :=
  circuit.circuitOpenedAt.any fun opened => now - opened < settings.circuitBreakerRecoverySeconds

end Circuit

/-- What an attempt comes to: a response with status `"1"`, one with another status, a timeout or
network error, an HTTP error status, or an exception that `_get` does not catch. -/
inductive UpstreamAnswer where
  | accepted
  | business
  | unreachable
  | refused (status : Nat)
  | uncaught
  deriving DecidableEq, Repr

/-- Where a call of `_get` is. -/
inductive CallPhase where
  | entered
  | waiting
  | attempting (attempt : Nat)
  | sleeping (attempt : Nat)
  | succeeded
  | failed
  | left
  deriving DecidableEq, Repr

/-- What a call does at one moment. -/
inductive CallStep where
  | checked (admission : Admission)
  | acquired
  | answered (answer : UpstreamAnswer)
  | woke
  | recordedSuccess
  | recordedFailure
  | cancelled
  deriving DecidableEq, Repr

/-- The call is inside the semaphore. -/
def CallPhase.holds : CallPhase → Bool
  | .attempting _ | .sleeping _ | .succeeded | .failed => true
  | .entered | .waiting | .left => false

section
variable (settings : CircuitSettings)

/-- After a retriable error: the sleep, unless this was the last attempt. -/
def retry (attempt : Nat) : CallPhase :=
  if (attempt : Int) < settings.upstreamMaxRetries then .sleeping attempt else .failed

def afterAnswer (attempt : Nat) : UpstreamAnswer → CallPhase
  | .accepted => .succeeded
  | .business => .failed
  | .unreachable => retry settings attempt
  | .refused status =>
      if status ≠ 0 ∧ status ∉ [429, 500, 502, 503, 504] then .failed else retry settings attempt
  | .uncaught => .left

def CallPhase.next : CallPhase → CallStep → Option CallPhase
  | _, .cancelled => some .left
  | .entered, .checked admission => some (if admission = .rejected then .left else .waiting)
  | .waiting, .acquired => some (if settings.attempts = 0 then .failed else .attempting 0)
  | .attempting attempt, .answered answer => some (afterAnswer settings attempt answer)
  | .sleeping attempt, .woke => some (.attempting (attempt + 1))
  | .succeeded, .recordedSuccess => some .left
  | .failed, .recordedFailure => some .left
  | _, _ => none

def Circuit.next (now : ℚ) (circuit : Circuit) : CallStep → Option Circuit
  | .checked admission =>
      let (answer, circuit) := circuit.beforeRequest settings now
      if answer = admission then some circuit else none
  | .recordedSuccess => some .recordSuccess
  | .recordedFailure => some (circuit.recordFailure settings now)
  | .acquired | .answered _ | .woke | .cancelled => some circuit

end

/-- The provider with its calls in the order in which they began. -/
structure MapCalls where
  circuit : Circuit := {}
  calls : List CallPhase := []
  deriving DecidableEq

/-- A new call, or a step of the call with the given number. -/
inductive CircuitEvent where
  | called
  | act (call : Nat) (step : CallStep)
  deriving DecidableEq, Repr

structure Moment where
  now : ℚ
  event : CircuitEvent
  deriving DecidableEq

/-- A permit of the semaphore is free for the step. -/
def MapCalls.permits (settings : CircuitSettings) (s : MapCalls) (step : CallStep) : Bool :=
  decide (step = .acquired → s.calls.countP CallPhase.holds < settings.mapMaxConcurrency)

def circuitMachine (settings : CircuitSettings) : Machine MapCalls Moment where
  initial s := s = {}
  step s moment := match moment.event with
    | .called => some { s with calls := s.calls ++ [.entered] }
    | .act call step => do
        let phase ← s.calls[call]?
        let phase ← phase.next settings step
        let circuit ← s.circuit.next settings moment.now step
        if s.permits settings step then some ⟨circuit, s.calls.set call phase⟩ else none

/-- The failures recorded since the last success or reset, along the moments of a run. -/
def countFailure (failures : Nat) (moment : Moment) : Nat :=
  match moment.event with
  | .act _ .recordedFailure => failures + 1
  | .act _ .recordedSuccess | .act _ (.checked .reset) => 0
  | .called | .act _ _ => failures

def failuresSince (history : List Moment) : Nat := history.foldl countFailure 0

section
variable (settings : CircuitSettings)

/-- The call whose HTTP attempt starts. -/
def startsAttempt (moment : Moment) : Option Nat :=
  match moment.event with
  | .act call .acquired => if settings.attempts = 0 then none else some call
  | .act call .woke => some call
  | .called | .act _ _ => none

def attemptsStarted (call : Nat) (history : List Moment) : Nat :=
  history.countP fun moment => startsAttempt settings moment = some call

/-- The attempts that a call which has passed the circuit can still start. -/
def CallPhase.attemptsLeft : CallPhase → Nat
  | .waiting => settings.attempts
  | .attempting attempt | .sleeping attempt => settings.attempts - (attempt + 1)
  | .entered | .succeeded | .failed | .left => 0

def MapCalls.attemptsLeft (s : MapCalls) (call : Nat) : Nat :=
  (s.calls[call]?).elim 0 (CallPhase.attemptsLeft settings)

/-- The calls that start an attempt while the circuit is open. -/
def startedWhileOpen : MapCalls → List Moment → List Nat
  | _, [] => []
  | s, moment :: rest =>
      ((startsAttempt settings moment).filter fun _ =>
          s.circuit.isOpen settings moment.now).toList ++
        ((circuitMachine settings).step s moment).elim [] fun t => startedWhileOpen t rest

end

variable {settings : CircuitSettings} {circuit changed : Circuit} {s t : MapCalls} {moment : Moment}
  {history rest : List Moment} {phase after : CallPhase} {step : CallStep} {call failures : Nat}
  {now : ℚ}

/-- A call stays where its step left it, and the circuit as the step made it. -/
theorem circuit_step_cases (stepped : (circuitMachine settings).step s moment = some t) :
    (moment.event = .called ∧ t = { s with calls := s.calls ++ [.entered] }) ∨
    ∃ call step phase after changed, moment.event = .act call step ∧
      s.calls[call]? = some phase ∧ phase.next settings step = some after ∧
      s.circuit.next settings moment.now step = some changed ∧
      t = ⟨changed, s.calls.set call after⟩ := by
  cases happened : moment.event with
  | called =>
      simp only [circuitMachine, happened, Option.some.injEq] at stepped
      exact .inl ⟨rfl, stepped.symm⟩
  | act call step =>
      simp only [circuitMachine, happened, Option.bind_eq_bind, Option.bind_eq_some_iff] at stepped
      obtain ⟨phase, found, after, moved, changed, answered, stepped⟩ := stepped
      split at stepped
      · exact .inr ⟨call, step, phase, after, changed, rfl, found, moved, answered,
          (Option.some.inj stepped).symm⟩
      · cases stepped

/-- The circuit counts the failures, and is open only when there are enough of them. -/
structure Circuit.Counts (settings : CircuitSettings) (failures : Nat) (circuit : Circuit) :
    Prop where
  count : circuit.failureCount = failures
  opened : circuit.circuitOpenedAt.isSome →
    settings.circuitBreakerFailureThreshold ≤ circuit.failureCount

theorem Circuit.Counts.reset : Circuit.Counts settings 0 {} where
  count := rfl
  opened is_open := nomatch is_open

theorem Circuit.Counts.recordFailure (counts : circuit.Counts settings failures) :
    (circuit.recordFailure settings now).Counts settings (failures + 1) := by
  have one := counts.count
  unfold Circuit.recordFailure
  dsimp only
  split
  case isTrue enough => exact ⟨congrArg (· + 1) one, fun _ => enough⟩
  case isFalse few =>
      refine ⟨congrArg (· + 1) one, fun is_open => ?_⟩
      have before := counts.opened is_open
      push_cast at few ⊢
      omega

theorem Circuit.Counts.next (counts : circuit.Counts settings failures)
    (answered : circuit.next settings now step = some changed) :
    changed.Counts settings (countFailure failures ⟨now, .act call step⟩) := by
  cases step with
  | recordedSuccess =>
      cases answered
      exact .reset
  | recordedFailure =>
      cases answered
      exact counts.recordFailure
  | checked admission =>
      simp only [Circuit.next, Circuit.beforeRequest] at answered
      cases opened : circuit.circuitOpenedAt with
      | none =>
          simp only [opened, Option.ite_none_right_eq_some, Option.some.injEq] at answered
          obtain ⟨rfl, rfl⟩ := answered
          exact counts
      | some opening =>
          simp only [opened] at answered
          split at answered
          all_goals
            simp only [Option.ite_none_right_eq_some, Option.some.injEq] at answered
            obtain ⟨rfl, rfl⟩ := answered
          · exact .reset
          · exact counts
  | acquired | answered _ | woke | cancelled =>
      cases answered
      exact counts

theorem counts_step (counts : s.circuit.Counts settings failures)
    (stepped : (circuitMachine settings).step s moment = some t) :
    t.circuit.Counts settings (countFailure failures moment) := by
  obtain ⟨now, event⟩ := moment
  obtain ⟨happened, rfl⟩ | ⟨call, step, phase, after, changed, happened, -, -, answered, rfl⟩ :=
    circuit_step_cases stepped
  all_goals
    dsimp only at happened
    subst happened
  · exact counts
  · exact counts.next answered

theorem counts_run (counts : s.circuit.Counts settings failures)
    (ran : (circuitMachine settings).run s history = some t) :
    t.circuit.Counts settings (history.foldl countFailure failures) := by
  induction history generalizing s failures with
  | nil =>
      cases Option.some.inj ran
      exact counts
  | cons moment rest ih =>
      obtain ⟨middle, stepped, ran⟩ := Option.bind_eq_some_iff.mp ran
      exact ih (counts_step counts stepped) ran

/-- Only a call with a retry left sleeps. -/
def CallPhase.Sound (settings : CircuitSettings) (phase : CallPhase) : Prop :=
  ∀ attempt : Nat, phase = .sleeping attempt → (attempt : Int) < settings.upstreamMaxRetries

/-- After an answer a call sleeps before its next attempt, or makes no other one. -/
theorem afterAnswer_cases (settings : CircuitSettings) (attempt : Nat) (answer : UpstreamAnswer) :
    ((attempt : Int) < settings.upstreamMaxRetries ∧
        afterAnswer settings attempt answer = .sleeping attempt) ∨
      afterAnswer settings attempt answer = .succeeded ∨
      afterAnswer settings attempt answer = .failed ∨
      afterAnswer settings attempt answer = .left := by
  have retried : ((attempt : Int) < settings.upstreamMaxRetries ∧
      retry settings attempt = .sleeping attempt) ∨ retry settings attempt = .failed := by
    unfold retry
    split
    case isTrue below => exact .inl ⟨below, rfl⟩
    case isFalse => exact .inr rfl
  cases answer with
  | accepted => exact .inr (.inl rfl)
  | business => exact .inr (.inr (.inl rfl))
  | uncaught => exact .inr (.inr (.inr rfl))
  | unreachable => exact retried.imp id fun same => .inr (.inl same)
  | refused status =>
      simp only [afterAnswer]
      split
      · exact .inr (.inr (.inl rfl))
      · exact retried.imp id fun same => .inr (.inl same)

theorem CallPhase.Sound.next (moved : phase.next settings step = some after) :
    after.Sound settings := by
  intro attempt same
  subst same
  cases phase <;> cases step <;> simp only [CallPhase.next, Option.some.injEq, reduceCtorEq] at moved
  case entered.checked => split at moved <;> cases moved
  case waiting.acquired => split at moved <;> cases moved
  case attempting.answered last answer =>
    obtain ⟨below, same⟩ | same := afterAnswer_cases settings last answer
    · cases same.symm.trans moved
      exact below
    · rw [moved] at same
      simp at same

def MapCalls.Sound (settings : CircuitSettings) (s : MapCalls) : Prop :=
  ∀ phase ∈ s.calls, phase.Sound settings

theorem sound_step (sound : s.Sound settings)
    (stepped : (circuitMachine settings).step s moment = some t) : t.Sound settings := by
  obtain ⟨-, rfl⟩ | ⟨call, step, phase, after, changed, -, -, moved, -, rfl⟩ :=
    circuit_step_cases stepped
  · intro phase member
    obtain member | member := List.mem_append.mp member
    · exact sound phase member
    · cases List.mem_singleton.mp member
      exact fun _ same => nomatch same
  · intro phase member
    obtain member | rfl := List.mem_or_eq_of_mem_set member
    · exact sound phase member
    · exact .next moved

/-- An open circuit lets nobody through. -/
theorem Circuit.beforeRequest_of_isOpen (is_open : circuit.isOpen settings now = true) :
    circuit.beforeRequest settings now = (.rejected, circuit) := by
  unfold Circuit.isOpen at is_open
  unfold Circuit.beforeRequest
  cases opened : circuit.circuitOpenedAt with
  | none => simp [opened] at is_open
  | some opening =>
      simp only [opened, Option.any_some, decide_eq_true_eq] at is_open
      exact if_neg (not_le.mpr is_open)

theorem Circuit.rejected_of_isOpen {admission : Admission}
    (is_open : circuit.isOpen settings now = true)
    (answered : circuit.next settings now (.checked admission) = some changed) :
    admission = .rejected := by
  simp only [Circuit.next, Circuit.beforeRequest_of_isOpen is_open,
    Option.ite_none_right_eq_some] at answered
  exact answered.1.symm

/-- A step of a call that is not let through uses up what it starts. -/
theorem CallPhase.attemptsLeft_next (sound : phase.Sound settings)
    (rejected : ∀ admission, step = .checked admission → admission = .rejected)
    (moved : phase.next settings step = some after) :
    after.attemptsLeft settings +
        (if startsAttempt settings ⟨now, .act call step⟩ = some call then 1 else 0) ≤
      phase.attemptsLeft settings := by
  cases phase <;> cases step <;>
    simp only [CallPhase.next, Option.some.injEq, reduceCtorEq] at moved <;> subst moved
  case entered.checked admission =>
    cases rejected admission rfl
    exact Nat.le_refl _
  case waiting.acquired =>
    by_cases none_left : settings.attempts = 0
    · simp [none_left, startsAttempt, CallPhase.attemptsLeft]
    · simp only [none_left, startsAttempt, CallPhase.attemptsLeft, if_false, if_true]
      omega
  case sleeping.woke attempt =>
    have below := sound attempt rfl
    simp only [startsAttempt, CallPhase.attemptsLeft, CircuitSettings.attempts, if_true]
    omega
  case attempting.answered attempt answer =>
    obtain ⟨-, same⟩ | same := afterAnswer_cases settings attempt answer
    · rw [same]
      exact Nat.le_refl _
    · obtain same | same | same := same
      all_goals
        rw [same]
        exact Nat.zero_le _
  all_goals exact Nat.zero_le _

theorem attemptsLeft_step (sound : s.Sound settings)
    (is_open : s.circuit.isOpen settings moment.now = true)
    (stepped : (circuitMachine settings).step s moment = some t) :
    t.attemptsLeft settings call +
        (if startsAttempt settings moment = some call then 1 else 0) ≤
      s.attemptsLeft settings call := by
  obtain ⟨now, event⟩ := moment
  obtain ⟨happened, rfl⟩ | ⟨moving, step, phase, after, changed, happened, found, moved, answered,
    rfl⟩ := circuit_step_cases stepped
  all_goals
    dsimp only at happened
    subst happened
  · simp only [MapCalls.attemptsLeft, List.getElem?_append]
    split
    · exact Nat.le_refl _
    · cases call - s.calls.length <;> exact Nat.zero_le _
  · have rejected : ∀ admission, step = .checked admission → admission = .rejected := by
      rintro admission rfl
      exact Circuit.rejected_of_isOpen is_open answered
    by_cases same : moving = call
    · subst same
      have inside := (List.getElem?_eq_some_iff.mp found).1
      simp only [MapCalls.attemptsLeft, found, List.getElem?_set_self inside, Option.elim_some]
      exact CallPhase.attemptsLeft_next (sound phase (List.mem_of_getElem? found)) rejected moved
    · have other : startsAttempt settings ⟨now, .act moving step⟩ ≠ some call := by
        cases step <;> simp [startsAttempt, same]
      simp [MapCalls.attemptsLeft, List.getElem?_set_ne same, other]

/-- While the circuit stays open, a call starts no more attempts than it had left. -/
theorem attemptsStarted_le (sound : s.Sound settings)
    (ran : (circuitMachine settings).run s rest = some t)
    (stays : (circuitMachine settings).MeetsAlong
      (fun s moment => s.circuit.isOpen settings moment.now = true) s rest) :
    attemptsStarted settings call rest ≤ s.attemptsLeft settings call := by
  induction rest generalizing s with
  | nil => exact Nat.zero_le _
  | cons moment rest ih =>
      obtain ⟨middle, stepped, ran⟩ := Option.bind_eq_some_iff.mp ran
      have later := ih (sound_step sound stepped) ran (stays.2 _ stepped)
      have used : middle.attemptsLeft settings call +
          (if startsAttempt settings moment = some call then 1 else 0) ≤
          s.attemptsLeft settings call := attemptsLeft_step sound stays.1 stepped
      simp only [attemptsStarted, List.countP_cons, decide_eq_true_eq] at later ⊢
      omega

/-- While the circuit stays open, every call that asks it is rejected. -/
theorem all_rejected (ran : (circuitMachine settings).run s rest = some t)
    (stays : (circuitMachine settings).MeetsAlong
      (fun s moment => s.circuit.isOpen settings moment.now = true) s rest) :
    ∀ moment ∈ rest, ∀ call admission, moment.event = .act call (.checked admission) →
      admission = .rejected := by
  induction rest generalizing s with
  | nil => exact fun _ member => nomatch member
  | cons moment rest ih =>
      obtain ⟨middle, stepped, ran⟩ := Option.bind_eq_some_iff.mp ran
      intro asked member call admission event
      obtain rfl | member := List.mem_cons.mp member
      · obtain ⟨happened, -⟩ | ⟨_, _, _, _, _, happened, -, -, answered, -⟩ :=
          circuit_step_cases stepped
        · cases event.symm.trans happened
        · cases event.symm.trans happened
          exact Circuit.rejected_of_isOpen stays.1 answered
      · exact ih ran (stays.2 _ stepped) asked member call admission event

/-- The circuit opens only after enough failures since the last success or reset. While it stays
open, whoever asks it is rejected, and a call starts at most the attempts it had left before. -/
theorem circuit_limits_attempts (ran : (circuitMachine settings).run {} history = some s) :
    (s.circuit.circuitOpenedAt.isSome →
      settings.circuitBreakerFailureThreshold ≤ failuresSince history) ∧
    ∀ rest t, (circuitMachine settings).run s rest = some t →
      (circuitMachine settings).MeetsAlong
        (fun s moment => s.circuit.isOpen settings moment.now = true) s rest →
      (∀ moment ∈ rest, ∀ call admission, moment.event = .act call (.checked admission) →
        admission = .rejected) ∧
      ∀ call, attemptsStarted settings call rest ≤ s.attemptsLeft settings call := by
  have counts := counts_run .reset ran
  have sound : s.Sound settings := by
    have reached := Machine.reaches_of_run history ran
    exact reached.invariant (fun sound stepped => sound_step sound stepped)
      fun _ member => nomatch member
  refine ⟨fun is_open => ?_, fun rest t later stays =>
    ⟨all_rejected later stays, fun call => attemptsStarted_le sound later stays⟩⟩
  have enough := counts.opened is_open
  rwa [counts.count] at enough

/-- A matrix of ten points: eight requests get a permit, and five of them fail. -/
def openingMoments : List Moment :=
  List.replicate 10 ⟨0, .called⟩ ++
    (List.range 10).map (fun call => ⟨0, .act call (.checked .passed)⟩) ++
    (List.range 8).map (fun call => ⟨0, .act call .acquired⟩) ++
    (List.range' 1 5).flatMap fun call =>
      [⟨1, .act call (.answered .business)⟩, ⟨1, .act call .recordedFailure⟩]

/-- A waiting request gets a permit, another one retries, and a new one is rejected. -/
def laterMoments : List Moment :=
  [⟨1, .act 8 .acquired⟩, ⟨2, .act 0 (.answered .unreachable)⟩, ⟨43 / 20, .act 0 .woke⟩,
    ⟨3, .called⟩, ⟨3, .act 10 (.checked .rejected)⟩]

theorem circuit_limits_attempts_matrix :
    ∃ s t, (circuitMachine {}).run {} openingMoments = some s ∧
      (circuitMachine {}).run s laterMoments = some t ∧
      s.circuit.circuitOpenedAt = some 1 ∧ (5 : Int) ≤ failuresSince openingMoments ∧
      attemptsStarted {} 8 laterMoments ≤ s.attemptsLeft {} 8 ∧ s.attemptsLeft {} 8 = 3 ∧
      attemptsStarted {} 10 laterMoments ≤ s.attemptsLeft {} 10 ∧ s.attemptsLeft {} 10 = 0 := by
  have ran : ∃ s, (circuitMachine {}).run {} openingMoments = some s ∧
      s.circuit.circuitOpenedAt = some 1 ∧ s.attemptsLeft {} 8 = 3 ∧ s.attemptsLeft {} 10 = 0 ∧
      ((circuitMachine {}).run s laterMoments).isSome ∧
      (circuitMachine {}).along (fun s moment => s.circuit.isOpen {} moment.now) s laterMoments =
        true := by decide +kernel
  obtain ⟨s, ran, opened, left, fresh, later, stays⟩ := ran
  obtain ⟨t, later⟩ := Option.isSome_iff_exists.mp later
  have limits := circuit_limits_attempts ran
  have started := (limits.2 _ _ later (Machine.meetsAlong_of_along stays)).2
  refine ⟨s, t, ran, later, opened, limits.1 ?_, started 8, left, started 10, fresh⟩
  rw [opened]
  rfl

/-- A request that waited and one that retries start attempts while the circuit is open. -/
theorem attempts_start_while_open :
    (openingMoments ++ laterMoments).Pairwise (fun earlier later => earlier.now ≤ later.now) ∧
      ((circuitMachine {}).run {} (openingMoments ++ laterMoments)).isSome ∧
      startedWhileOpen {} {} (openingMoments ++ laterMoments) = [8, 0] := by
  decide +kernel

end MapGo.Maps
