import MapGo.Runtime.RateWindows
import MapGo.Text

/-! The rate limits of the API. A request is counted for its address and then for its session, its
address again or, to log in or register, its source; other requests come between the two counts.
Both limits together decide whether it is let through. -/
namespace MapGo.Server

open Transition Pacing
open MapGo.Runtime

/-- The limits of the settings. -/
structure RateSettings where
  authIpRequestsPerMinute : Nat := 600
  apiIpRequestsPerMinute : Nat := 3000
  authDeviceRequestsPerMinute : Nat := 30
  apiRequestsPerMinute : Nat := 120
  deriving DecidableEq, Repr

/-- What the limiter reads of a request; `authorization` is empty without the header. -/
structure ApiRequest where
  path : String
  client : Option String
  authorization : String := ""
  deriving DecidableEq, Repr

namespace ApiRequest
variable (digest : String → String) (settings : RateSettings) (request : ApiRequest)

/-- The paths that are limited. -/
def limited : Bool :=
  Text.hasPrefix request.path "/api/" && request.path ∉ ["/api/health", "/api/config"]

def authenticates : Bool := request.path ∈ ["/api/login", "/api/register"]

/-- `hashlib.sha256(client_ip.encode()).hexdigest()[:24]` is given as `digest`. -/
def ipDigest : String := digest (request.client.getD "unknown")

def ipLimit : Nat :=
  if request.authenticates then settings.authIpRequestsPerMinute
  else settings.apiIpRequestsPerMinute

def identity : String :=
  if request.authenticates then "auth-source:" ++ request.ipDigest digest
  else if Text.hasPrefix request.authorization "Bearer " then
    "session:" ++ digest (Text.withoutPrefix request.authorization "Bearer ")
  else "anonymous:" ++ request.ipDigest digest

def identityLimit : Nat :=
  if request.authenticates then settings.authDeviceRequestsPerMinute
  else settings.apiRequestsPerMinute

def ipKey : String := "rate:api-ip:" ++ request.ipDigest digest

def identityKey : String := "rate:api:" ++ request.identity digest

end ApiRequest

/-- A request that has been counted for its address, with the answer and its time. -/
structure Counted where
  request : ApiRequest
  ipCount : Int
  ipTime : ℚ
  deriving DecidableEq, Repr

/-- A request that is let through, with the times of its two counts. -/
structure Admitted where
  request : ApiRequest
  ipTime : ℚ
  time : ℚ
  deriving DecidableEq, Repr

/-- The counters, the requests between their counts and the ones let through. -/
structure Limiter where
  counters : AnsweredRun
  waiting : List Counted := []
  admitted : List Admitted := []
  deriving DecidableEq

inductive LimiterAction where
  /-- The count for the address. -/
  | arrive (request : ApiRequest) (now : ℚ)
  /-- The count for the identity of a waiting request, and the decision. -/
  | decide (place : Nat) (now : ℚ)
  /-- Any other use of the counters. -/
  | other (increment : Increment)
  deriving DecidableEq, Repr

namespace Limiter

def rateCall (key : String) (now : ℚ) : Increment := ⟨key, 60, 1, now⟩

/-- The prefix of the limiter's keys. -/
def ownKey (key : String) : Bool := Text.hasPrefix key "rate:api"

def machine (digest : String → String) (settings : RateSettings) : Machine Limiter LimiterAction where
  initial s := answeredMachine.initial s.counters ∧ s.waiting = [] ∧ s.admitted = []
  step s
    | .arrive request now =>
        if request.limited then
          (answeredMachine.step s.counters (rateCall (request.ipKey digest) now)).map fun counters =>
            { s with
              counters := counters
              waiting := s.waiting ++
                [⟨request, s.counters.run.answer (rateCall (request.ipKey digest) now), now⟩] }
        else none
    | .decide place now =>
        match s.waiting[place]? with
        | none => none
        | some waiter =>
            let call := rateCall (waiter.request.identityKey digest) now
            (answeredMachine.step s.counters call).map fun counters =>
              let count := s.counters.run.answer call
              { counters := counters
                waiting := s.waiting.eraseIdx place
                admitted := s.admitted ++
                  if waiter.request.ipLimit settings < waiter.ipCount ∨
                      waiter.request.identityLimit settings < count then []
                  else [⟨waiter.request, waiter.ipTime, now⟩] }
    | .other increment =>
        if ownKey increment.key then none
        else (answeredMachine.step s.counters increment).map fun counters =>
          { s with counters := counters }

variable {digest : String → String} {settings : RateSettings} {s t : Limiter}
  {action : LimiterAction} {request : ApiRequest}

theorem ownKey_ipKey : ownKey (request.ipKey digest) = true :=
  Text.hasPrefix_trans (Text.hasPrefix_append "rate:api-ip:" _) (by decide)

theorem ownKey_identityKey : ownKey (request.identityKey digest) = true :=
  Text.hasPrefix_trans (Text.hasPrefix_append "rate:api:" _) (by decide)

/-- The counters answer the limiter's calls as calls of one request a minute. -/
def Own (s : Limiter) : Prop :=
  ∀ entry ∈ s.counters.answers, ownKey entry.1.key = true →
    entry.1.amount = 1 ∧ entry.1.ttlSeconds = 60

theorem Own.steady (own : s.Own) {key : String} (mine : ownKey key = true) :
    Steady s.counters.answers key 60 := by
  intro entry member same
  exact own entry member (same ▸ mine)

/-- Every action is one call of the counters. -/
theorem step_call (stepped : (machine digest settings).step s action = some t) :
    ∃ call, answeredMachine.step s.counters call = some t.counters ∧
      (ownKey call.key = true → call.amount = 1 ∧ call.ttlSeconds = 60) := by
  cases action with
  | arrive request now =>
      simp only [machine, Option.ite_none_right_eq_some, Option.map_eq_some_iff] at stepped
      obtain ⟨-, counters, counted, rfl⟩ := stepped
      exact ⟨_, counted, fun _ => ⟨rfl, rfl⟩⟩
  | decide place now =>
      simp only [machine] at stepped
      split at stepped
      · cases stepped
      · obtain ⟨counters, counted, rfl⟩ := Option.map_eq_some_iff.mp stepped
        exact ⟨_, counted, fun _ => ⟨rfl, rfl⟩⟩
  | other increment =>
      simp only [machine, Option.ite_none_left_eq_some, Option.map_eq_some_iff] at stepped
      obtain ⟨foreign, counters, counted, rfl⟩ := stepped
      exact ⟨increment, counted, fun own => absurd own foreign⟩

theorem own_of_reachable (reached : (machine digest settings).Reachable s) :
    answeredMachine.Reachable s.counters ∧ s.Own := by
  apply reached.invariant (P := fun s => answeredMachine.Reachable s.counters ∧ s.Own)
  · intro s initial
    refine ⟨⟨_, initial.1, .refl _⟩, fun entry member => ?_⟩
    rw [initial.1.2] at member
    cases member
  · intro s a t kept stepped
    obtain ⟨call, counted, steady⟩ := step_call stepped
    refine ⟨kept.1.next counted, fun entry member => ?_⟩
    rw [(AnsweredRun.step_eq counted).2] at member
    rcases List.mem_append.mp member with earlier | last
    · exact kept.2 entry earlier
    · rw [List.mem_singleton.mp last]
      exact steady

/-- The requests of an identity and of an address that share a limit. -/
def sameIdentity (digest : String → String) (request other : ApiRequest) : Bool :=
  other.identityKey digest = request.identityKey digest &&
    other.authenticates = request.authenticates

def sameAddress (digest : String → String) (request other : ApiRequest) : Bool :=
  other.ipKey digest = request.ipKey digest && other.authenticates = request.authenticates

theorem of_sameIdentity (settings : RateSettings) {other : ApiRequest}
    (same : sameIdentity digest request other = true) :
    other.identityKey digest = request.identityKey digest ∧
      other.identityLimit settings = request.identityLimit settings := by
  simp only [sameIdentity, Bool.and_eq_true, decide_eq_true_eq] at same
  exact ⟨same.1, by rw [ApiRequest.identityLimit, same.2, ApiRequest.identityLimit]⟩

theorem of_sameAddress (settings : RateSettings) {other : ApiRequest}
    (same : sameAddress digest request other = true) :
    other.ipKey digest = request.ipKey digest ∧
      other.ipLimit settings = request.ipLimit settings := by
  simp only [sameAddress, Bool.and_eq_true, decide_eq_true_eq] at same
  exact ⟨same.1, by rw [ApiRequest.ipLimit, same.2, ApiRequest.ipLimit]⟩

/-- The requests let through for an identity, beside what its limit granted. -/
theorem identity_sublist (request : ApiRequest) (reached : (machine digest settings).Reachable s) :
    ((s.admitted.filter fun a => sameIdentity digest request a.request).map Admitted.time).Sublist
      (grants s.counters.answers (request.identityKey digest) (request.identityLimit settings)) := by
  apply reached.invariant (P := fun s : Limiter =>
    ((s.admitted.filter fun a => sameIdentity digest request a.request).map Admitted.time).Sublist
      (grants s.counters.answers (request.identityKey digest) (request.identityLimit settings)))
  · intro s initial
    rw [initial.2.2]
    exact List.nil_sublist _
  · intro s action t ih stepped
    cases action with
    | arrive other now =>
        simp only [machine, Option.ite_none_right_eq_some, Option.map_eq_some_iff] at stepped
        obtain ⟨-, counters, counted, rfl⟩ := stepped
        exact ih.trans (AnsweredRun.grants_grow counted)
    | other increment =>
        simp only [machine, Option.ite_none_left_eq_some, Option.map_eq_some_iff] at stepped
        obtain ⟨-, counters, counted, rfl⟩ := stepped
        exact ih.trans (AnsweredRun.grants_grow counted)
    | decide place now =>
        simp only [machine] at stepped
        split at stepped
        · cases stepped
        rename_i waiter _
        obtain ⟨counters, counted, rfl⟩ := Option.map_eq_some_iff.mp stepped
        rw [AnsweredRun.grants_step counted, List.filter_append, List.map_append]
        refine ih.append ?_
        split
        · exact List.nil_sublist _
        rename_i passed
        rw [not_or, not_lt, not_lt] at passed
        by_cases same : sameIdentity digest request waiter.request = true
        · obtain ⟨key, limit⟩ := of_sameIdentity settings same
          have granted : lets (request.identityKey digest) (request.identityLimit settings)
              (rateCall (waiter.request.identityKey digest) now,
                s.counters.run.answer (rateCall (waiter.request.identityKey digest) now)) =
                  true := by
            rw [lets, Bool.and_eq_true]
            exact ⟨decide_eq_true key, decide_eq_true (limit ▸ passed.2)⟩
          rw [granted, if_pos rfl]
          simp [same, rateCall]
        · simp [same]

/-- A waiting request that its address's limit lets through. -/
def passing (settings : RateSettings) (digest : String → String) (request : ApiRequest)
    (since : ℚ) (waiter : Counted) : Bool :=
  sameAddress digest request waiter.request && waiter.ipCount ≤ request.ipLimit settings &&
    (since ≤ waiter.ipTime && waiter.ipTime < since + 60)

/-- A request that was let through, by the time of the count for its address. -/
def countedIn (digest : String → String) (request : ApiRequest) (since : ℚ) (a : Admitted) : Bool :=
  sameAddress digest request a.request && (since ≤ a.ipTime && a.ipTime < since + 60)

/-- The requests of an address that were let through or may still be, beside what its limit
granted. -/
theorem address_within (request : ApiRequest) (since : ℚ)
    (reached : (machine digest settings).Reachable s) :
    s.admitted.countP (countedIn digest request since) +
        s.waiting.countP (passing settings digest request since) ≤
      within (grants s.counters.answers (request.ipKey digest) (request.ipLimit settings)) since
        (since + 60) := by
  apply reached.invariant (P := fun s : Limiter =>
    s.admitted.countP (countedIn digest request since) +
        s.waiting.countP (passing settings digest request since) ≤
      within (grants s.counters.answers (request.ipKey digest) (request.ipLimit settings)) since
        (since + 60))
  · intro s initial
    rw [initial.2.1, initial.2.2]
    exact Nat.zero_le _
  · intro s action t ih stepped
    cases action with
    | other increment =>
        simp only [machine, Option.ite_none_left_eq_some, Option.map_eq_some_iff] at stepped
        obtain ⟨-, counters, counted, rfl⟩ := stepped
        exact ih.trans ((AnsweredRun.grants_grow counted).countP_le)
    | arrive other now =>
        simp only [machine, Option.ite_none_right_eq_some, Option.map_eq_some_iff] at stepped
        obtain ⟨-, counters, counted, rfl⟩ := stepped
        have grown : within (grants s.counters.answers (request.ipKey digest)
            (request.ipLimit settings)) since (since + 60) ≤
            within (grants counters.answers (request.ipKey digest) (request.ipLimit settings)) since
              (since + 60) := (AnsweredRun.grants_grow counted).countP_le
        rw [List.countP_append, List.countP_singleton]
        split
        · rename_i passes
          simp only [passing, Bool.and_eq_true, decide_eq_true_eq] at passes
          obtain ⟨⟨same, few⟩, inside⟩ := passes
          have granted : lets (request.ipKey digest) (request.ipLimit settings)
              (rateCall (other.ipKey digest) now,
                s.counters.run.answer (rateCall (other.ipKey digest) now)) = true := by
            rw [lets, Bool.and_eq_true]
            exact ⟨decide_eq_true (of_sameAddress settings same).1,
              decide_eq_true few⟩
          have period : since ≤ (rateCall (other.ipKey digest) now).now ∧
              (rateCall (other.ipKey digest) now).now < since + 60 := inside
          rw [AnsweredRun.grants_step counted, granted, if_pos rfl, within_append, if_pos period]
          dsimp only at ih ⊢
          omega
        · exact ih.trans grown
    | decide place now =>
        simp only [machine] at stepped
        split at stepped
        · cases stepped
        rename_i waiter found
        obtain ⟨counters, counted, rfl⟩ := Option.map_eq_some_iff.mp stepped
        refine le_trans ?_ (ih.trans ((AnsweredRun.grants_grow counted).countP_le))
        have parts := countP_eraseIdx (p := passing settings digest request since) found
        rw [List.countP_append]
        have moved : List.countP (countedIn digest request since)
            (if waiter.request.ipLimit settings < waiter.ipCount ∨
                waiter.request.identityLimit settings <
                  s.counters.run.answer (rateCall (waiter.request.identityKey digest) now) then []
              else [⟨waiter.request, waiter.ipTime, now⟩]) ≤
            if passing settings digest request since waiter = true then 1 else 0 := by
          split
          · exact Nat.zero_le _
          rename_i passed
          rw [not_or, not_lt, not_lt] at passed
          rw [List.countP_singleton]
          split
          · rename_i member
            simp only [countedIn, Bool.and_eq_true, decide_eq_true_eq] at member
            obtain ⟨shared, period⟩ := member
            have limit := (of_sameAddress settings shared).2
            rw [if_pos]
            simp only [passing, Bool.and_eq_true, decide_eq_true_eq]
            exact ⟨⟨shared, limit ▸ passed.1⟩, period⟩
          · exact Nat.zero_le _
        dsimp only at parts moved ⊢
        omega

/-- However requests and their counts interleave: in any minute the API lets through at most twice
the limit of an identity, and at most twice the limit of an address, of its requests to log in or
register and of all others. -/
theorem admissions_limited (digest : String → String) (settings : RateSettings) (s : Limiter)
    (reached : (machine digest settings).Reachable s) (request : ApiRequest) (since : ℚ) :
    ((request.identityLimit settings : Int) < failClosed →
      s.admitted.countP (fun a => sameIdentity digest request a.request && (since ≤ a.time &&
        a.time < since + 60)) ≤ 2 * request.identityLimit settings) ∧
    ((request.ipLimit settings : Int) < failClosed →
      s.admitted.countP (countedIn digest request since) ≤ 2 * request.ipLimit settings) := by
  obtain ⟨counted, own⟩ := own_of_reachable reached
  constructor
  · intro small
    have granted := AnsweredRun.grants_within small counted
      (own.steady (ownKey_identityKey : ownKey (request.identityKey digest) = true)) since
    have shown := (identity_sublist request reached).countP_le
      (p := fun time => since ≤ time ∧ time < since + 60)
    rw [List.countP_map, List.countP_filter] at shown
    refine le_trans (le_of_eq ?_) (shown.trans granted)
    apply List.countP_congr
    intro a _
    simp [and_comm]
  · intro small
    have granted := AnsweredRun.grants_within small counted
      (own.steady (ownKey_ipKey : ownKey (request.ipKey digest) = true)) since
    have shown := address_within request since reached
    refine le_trans ?_ granted
    exact (Nat.le_add_right _ _).trans shown

/-- Three requests of one session under a limit of two, and one after the minute. -/
def signedIn : ApiRequest := ⟨"/api/me", some "10.0.0.7", "Bearer t"⟩

def tight : RateSettings := { apiRequestsPerMinute := 2 }

def burst : List LimiterAction :=
  [.arrive signedIn 0, .decide 0 1, .arrive signedIn 2, .arrive signedIn 3, .decide 1 3, .decide 0 4,
    .arrive signedIn 62, .decide 0 62]

theorem admissions_limited_burst : ∃ s : Limiter,
    (machine id tight).run ⟨⟨⟨{}, 0, []⟩, []⟩, [], []⟩ burst = some s ∧
      s.admitted.map Admitted.time = [1, 3, 62] ∧
      s.admitted.countP (fun a => sameIdentity id signedIn a.request && (3 ≤ a.time &&
        a.time < 3 + 60)) ≤ 4 := by
  have ran : ((machine id tight).run ⟨⟨⟨{}, 0, []⟩, []⟩, [], []⟩ burst).any
      (fun s => s.admitted.map Admitted.time = [1, 3, 62]) = true := by decide +kernel
  obtain ⟨s, ran, times⟩ := (Option.any_eq_true ..).mp ran
  have reached : (machine id tight).Reachable s :=
    Machine.reachable_of_run burst ⟨⟨⟨le_rfl, rfl, rfl⟩, rfl⟩, rfl, rfl⟩ ran
  exact ⟨s, ran, of_decide_eq_true times,
    (admissions_limited id tight s reached signedIn 3).1 (by decide)⟩

end Limiter
end MapGo.Server
