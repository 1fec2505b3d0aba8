import MapGo.Runtime.RateWindows
import MapGo.Text

/-! The daily budgets of AI planning. A request is counted as a plan of its day, then the tokens of
that day are read, and the tokens it has used are added on the day it ends. Requests come between
these calls and may run past midnight. -/
namespace MapGo.Server

open Transition Pacing
open MapGo.Runtime

/-- `f"{datetime.now(timezone.utc):%Y%m%d}"` of a day. -/
structure DayFormat where
  text : Int → String
  injective : Function.Injective text
  plain : ∀ day, ':' ∉ (text day).toList

structure BudgetSettings where
  /-- The UTC time, in seconds, at which the clock of the counters stands at zero. -/
  epoch : ℚ
  aiPlansPerDay : Nat := 50
  dailyAiTokenQuota : Nat := 100000
  maxLlmOutputTokens : Int := 2000
  llmInputCostPerMillionUsd : ℚ := 2 / 5
  llmOutputCostPerMillionUsd : ℚ := 8 / 5
  maxAiRequestCostUsd : ℚ := 1 / 5

def daySeconds : Int := 86400

namespace BudgetSettings
variable (settings : BudgetSettings)

def day (now : ℚ) : Int := ⌊(settings.epoch + now) / daySeconds⌋

/-- The moment of the counters' clock at which a day begins. -/
def dayStart (day : Int) : ℚ := day * daySeconds - settings.epoch

/-- The worst case of the request's cost is within the limit of one request. -/
def affordable (text : String) : Bool :=
  let estimatedInputTokens : Int := max 1 ((text.length / 2 : Nat) : Int)
  (estimatedInputTokens * settings.llmInputCostPerMillionUsd +
    settings.maxLlmOutputTokens * settings.llmOutputCostPerMillionUsd) / 1000000 ≤
      settings.maxAiRequestCostUsd

end BudgetSettings

def planKey (format : DayFormat) (user : Nat) (day : Int) : String :=
  "quota:ai-plans:" ++ toString user ++ ":" ++ format.text day

def tokenKey (format : DayFormat) (user : Nat) (day : Int) : String :=
  "quota:ai-tokens:" ++ toString user ++ ":" ++ format.text day

/-- A request that has been counted as a plan of a day. -/
structure Asking where
  user : Nat
  day : Int
  text : String
  deriving DecidableEq, Repr

/-- The counters, the requests that wait for the tokens of their day, the users of the running ones,
and the users and days of all that were let through. -/
structure BudgetRun where
  counters : AnsweredRun
  asking : List Asking := []
  running : List Nat := []
  admitted : List (Nat × Int) := []
  deriving DecidableEq

inductive BudgetAction where
  /-- `_enforce_ai_budget`, up to the count of plans. -/
  | ask (user : Nat) (text : String) (now : ℚ)
  /-- `_enforce_ai_budget`, from the reading of tokens. -/
  | check (place : Nat) (now : ℚ)
  /-- `_record_ai_usage` at the end of a run. -/
  | record (place inputTokens outputTokens : Nat) (now : ℚ)
  /-- A run raises, and nothing is recorded. -/
  | fail (place : Nat)
  | other (increment : Increment)
  deriving DecidableEq, Repr

namespace BudgetRun

/-- The prefix of the keys of both budgets. -/
def ownKey (key : String) : Bool := Text.hasPrefix key "quota:ai-"

def planCall (format : DayFormat) (settings : BudgetSettings) (user : Nat) (now : ℚ) : Increment :=
  ⟨planKey format user (settings.day now), daySeconds, 1, now⟩

def machine (format : DayFormat) (settings : BudgetSettings) : Machine BudgetRun BudgetAction where
  initial s := answeredMachine.initial s.counters ∧ s.asking = [] ∧ s.running = [] ∧ s.admitted = []
  step s
    | .ask user text now =>
        let call := planCall format settings user now
        (answeredMachine.step s.counters call).map fun counters =>
          { s with
            counters := counters
            asking := s.asking ++
              if settings.aiPlansPerDay < s.counters.run.answer call then []
              else [⟨user, settings.day now, text⟩] }
    | .check place now =>
        match s.asking[place]? with
        | none => none
        | some asker =>
            let call : Increment := ⟨tokenKey format asker.user asker.day, daySeconds, 0, now⟩
            (answeredMachine.step s.counters call).map fun counters =>
              let used := s.counters.run.answer call
              let passes := used < settings.dailyAiTokenQuota ∧ settings.affordable asker.text
              { counters := counters
                asking := s.asking.eraseIdx place
                running := s.running ++ if passes then [asker.user] else []
                admitted := s.admitted ++ if passes then [(asker.user, asker.day)] else [] }
    | .record place inputTokens outputTokens now =>
        match s.running[place]? with
        | none => none
        | some user =>
            let total := inputTokens + outputTokens
            if total = 0 then some { s with running := s.running.eraseIdx place }
            else
              let call : Increment :=
                ⟨tokenKey format user (settings.day now), daySeconds, total, now⟩
              (answeredMachine.step s.counters call).map fun counters =>
                { s with
                  counters := counters
                  running := s.running.eraseIdx place }
    | .fail place =>
        if place < s.running.length then some { s with running := s.running.eraseIdx place }
        else none
    | .other increment =>
        if ownKey increment.key then none
        else (answeredMachine.step s.counters increment).map fun counters =>
          { s with counters := counters }

/-- The requests of a user that are between their calls. -/
def inFlight (s : BudgetRun) (user : Nat) : Nat :=
  s.asking.countP (fun asker => asker.user = user) + s.running.count user

/-- The tokens that have been recorded for a user on a day. -/
def recorded (format : DayFormat) (s : BudgetRun) (user : Nat) (day : Int) : Int :=
  total s.counters.run.history (tokenKey format user day)

/-- The user keeps at most so many requests in flight, each of at most so many tokens. -/
def moderate (user most each : Nat) (s : BudgetRun) : BudgetAction → Bool
  | .ask other _ _ => other ≠ user || inFlight s user < most
  | .record place inputTokens outputTokens _ =>
      s.running[place]? ≠ some user || inputTokens + outputTokens ≤ each
  | _ => true

variable {format : DayFormat} {settings : BudgetSettings} {s t : BudgetRun} {action : BudgetAction}
  {user other : Nat} {day today : Int} {now later : ℚ}

theorem day_eq_iff : settings.day now = day ↔
    settings.dayStart day ≤ now ∧ now < settings.dayStart day + daySeconds := by
  have positive : (0 : ℚ) < daySeconds := by simp [daySeconds]
  rw [BudgetSettings.day, BudgetSettings.dayStart, Int.floor_eq_iff, le_div_iff₀ positive,
    div_lt_iff₀ positive, add_mul, one_mul]
  constructor
  · rintro ⟨after, before⟩
    exact ⟨by linarith, by linarith⟩
  · rintro ⟨after, before⟩
    exact ⟨by linarith, by linarith⟩

theorem day_mono (ordered : now ≤ later) : settings.day now ≤ settings.day later := by
  have positive : (0 : ℚ) < daySeconds := by simp [daySeconds]
  exact Int.floor_mono (div_le_div_of_nonneg_right (by linarith) positive.le)

theorem key_inj {start : String} (same : start ++ toString user ++ ":" ++ format.text day =
    start ++ toString other ++ ":" ++ format.text today) : user = other ∧ day = today := by
  have chars : (toString user).toList ++ ':' :: (format.text day).toList =
      (toString other).toList ++ ':' :: (format.text today).toList := by
    have whole := congrArg String.toList same
    simp only [String.toList_append, List.append_assoc, List.append_cancel_left_eq] at whole
    exact whole
  obtain ⟨users, -, days⟩ := (List.append_cons_inj_of_notMem Text.number_plain (format.plain day)).mp
    chars
  exact ⟨Nat.repr_injective (String.toList_injective users),
    format.injective (String.toList_injective days)⟩

theorem hasPrefix_key (start : String) (user : Nat) (day : String) :
    Text.hasPrefix (start ++ toString user ++ ":" ++ day) start = true := by
  rw [String.append_assoc, String.append_assoc]
  exact Text.hasPrefix_append ..

theorem planKey_prefix : Text.hasPrefix (planKey format user day) "quota:ai-plans:" = true := by
  unfold planKey
  exact hasPrefix_key ..

theorem tokenKey_prefix : Text.hasPrefix (tokenKey format user day) "quota:ai-tokens:" = true := by
  unfold tokenKey
  exact hasPrefix_key ..

theorem ownKey_planKey : ownKey (planKey format user day) = true :=
  Text.hasPrefix_trans planKey_prefix (by decide)

theorem ownKey_tokenKey : ownKey (tokenKey format user day) = true :=
  Text.hasPrefix_trans tokenKey_prefix (by decide)

theorem planKey_ne_tokenKey : planKey format user day ≠ tokenKey format other today := by
  intro same
  have plans : Text.hasPrefix (tokenKey format other today) "quota:ai-plans:" = true :=
    same ▸ planKey_prefix
  rw [Text.hasPrefix_of_apart tokenKey_prefix (by decide)] at plans
  cases plans

/-- The calls that a step makes for the budgets. -/
def FromBudget (format : DayFormat) (settings : BudgetSettings) (call : Increment) : Prop :=
  ∀ user day, call.key = planKey format user day →
    call.amount = 1 ∧ call.ttlSeconds = daySeconds ∧ settings.day call.now = day

/-- A step makes one call of the counters, or none. -/
theorem step_call (stepped : (machine format settings).step s action = some t) :
    t.counters = s.counters ∨ ∃ call, answeredMachine.step s.counters call = some t.counters ∧
      FromBudget format settings call := by
  cases action with
  | ask user text now =>
      obtain ⟨counters, counted, rfl⟩ := Option.map_eq_some_iff.mp stepped
      refine .inr ⟨_, counted, fun other day same => ?_⟩
      exact ⟨rfl, rfl, (key_inj same).2⟩
  | check place now =>
      simp only [machine] at stepped
      split at stepped
      · cases stepped
      · obtain ⟨counters, counted, rfl⟩ := Option.map_eq_some_iff.mp stepped
        exact .inr ⟨_, counted, fun user day same => absurd same.symm planKey_ne_tokenKey⟩
  | record place inputTokens outputTokens now =>
      simp only [machine] at stepped
      split at stepped
      · cases stepped
      split at stepped
      · cases stepped
        exact .inl rfl
      · obtain ⟨counters, counted, rfl⟩ := Option.map_eq_some_iff.mp stepped
        exact .inr ⟨_, counted, fun user day same => absurd same.symm planKey_ne_tokenKey⟩
  | fail place =>
      simp only [machine, Option.ite_none_right_eq_some, Option.some.injEq] at stepped
      obtain ⟨-, rfl⟩ := stepped
      exact .inl rfl
  | other increment =>
      simp only [machine, Option.ite_none_left_eq_some, Option.map_eq_some_iff] at stepped
      obtain ⟨foreign, counters, counted, rfl⟩ := stepped
      refine .inr ⟨increment, counted, fun user day same => ?_⟩
      exact absurd (same ▸ ownKey_planKey) foreign

theorem calls_of_reachable (reached : (machine format settings).Reachable s) :
    answeredMachine.Reachable s.counters ∧
      ∀ entry ∈ s.counters.answers, FromBudget format settings entry.1 := by
  apply reached.invariant (P := fun s => answeredMachine.Reachable s.counters ∧
    ∀ entry ∈ s.counters.answers, FromBudget format settings entry.1)
  · intro s initial
    refine ⟨⟨_, initial.1, .refl _⟩, fun entry member => ?_⟩
    rw [initial.1.2] at member
    cases member
  · intro s a t kept stepped
    obtain same | ⟨call, counted, budget⟩ := step_call stepped
    · rwa [same]
    · refine ⟨kept.1.next counted, fun entry member => ?_⟩
      rw [(AnsweredRun.step_eq counted).2] at member
      rcases List.mem_append.mp member with earlier | last
      · exact kept.2 entry earlier
      · rwa [List.mem_singleton.mp last]

/-- An asker of the user and the day. -/
def asksFor (user : Nat) (day : Int) (asker : Asking) : Bool :=
  asker.user = user && asker.day = day

/-- The plans of a user and a day that were let through or may still be, beside what the limit of
plans granted. -/
theorem plans_granted (user : Nat) (day : Int) (reached : (machine format settings).Reachable s) :
    s.admitted.count (user, day) + s.asking.countP (asksFor user day) ≤
      (grants s.counters.answers (planKey format user day) settings.aiPlansPerDay).length := by
  apply reached.invariant (P := fun s : BudgetRun =>
    s.admitted.count (user, day) + s.asking.countP (asksFor user day) ≤
      (grants s.counters.answers (planKey format user day) settings.aiPlansPerDay).length)
  · intro s initial
    rw [initial.2.1, initial.2.2.2]
    exact Nat.zero_le _
  · intro s action t ih stepped
    cases action with
    | ask other text now =>
        obtain ⟨counters, counted, rfl⟩ := Option.map_eq_some_iff.mp stepped
        have grown : (grants s.counters.answers (planKey format user day)
            settings.aiPlansPerDay).length ≤ (grants counters.answers
              (planKey format user day) settings.aiPlansPerDay).length :=
          (AnsweredRun.grants_grow counted).length_le
        rw [List.countP_append]
        split
        · exact ih.trans grown
        rename_i passed
        rw [List.countP_singleton]
        split
        · rename_i asks
          simp only [asksFor, Bool.and_eq_true, decide_eq_true_eq] at asks
          obtain ⟨rfl, rfl⟩ := asks
          have granted : lets (planKey format other (settings.day now)) settings.aiPlansPerDay
              (planCall format settings other now,
                s.counters.run.answer (planCall format settings other now)) = true := by
            rw [lets, Bool.and_eq_true]
            exact ⟨decide_eq_true rfl, decide_eq_true (not_lt.mp passed)⟩
          rw [AnsweredRun.grants_step counted, granted, if_pos rfl, List.length_append]
          dsimp only [List.length_singleton] at ih ⊢
          omega
        · exact ih.trans grown
    | check place now =>
        simp only [machine] at stepped
        split at stepped
        · cases stepped
        rename_i asker found
        obtain ⟨counters, counted, rfl⟩ := Option.map_eq_some_iff.mp stepped
        refine le_trans ?_ (ih.trans (AnsweredRun.grants_grow counted).length_le)
        have parts := countP_eraseIdx (p := asksFor user day) found
        rw [List.count_append]
        have moved : List.count (user, day) (if s.counters.run.answer
              ⟨tokenKey format asker.user asker.day, daySeconds, 0, now⟩ <
                settings.dailyAiTokenQuota ∧ settings.affordable asker.text
              then [(asker.user, asker.day)] else []) ≤ if asksFor user day asker then 1 else 0 := by
          split
          · rw [List.count_singleton]
            simp [asksFor]
          · exact Nat.zero_le _
        dsimp only at parts moved ⊢
        omega
    | record place inputTokens outputTokens now =>
        simp only [machine] at stepped
        split at stepped
        · cases stepped
        split at stepped
        · cases stepped
          exact ih
        · obtain ⟨counters, counted, rfl⟩ := Option.map_eq_some_iff.mp stepped
          exact ih.trans (AnsweredRun.grants_grow counted).length_le
    | fail place =>
        simp only [machine, Option.ite_none_right_eq_some, Option.some.injEq] at stepped
        obtain ⟨-, rfl⟩ := stepped
        exact ih
    | other increment =>
        simp only [machine, Option.ite_none_left_eq_some, Option.map_eq_some_iff] at stepped
        obtain ⟨-, counters, counted, rfl⟩ := stepped
        exact ih.trans (AnsweredRun.grants_grow counted).length_le

/-- However requests and their counts interleave, also past midnight: a user is let through to no
more plans of a day than the limit. -/
theorem plans_limited (format : DayFormat) (settings : BudgetSettings) (s : BudgetRun)
    (small : (settings.aiPlansPerDay : Int) < failClosed)
    (reached : (machine format settings).Reachable s) (user : Nat) (day : Int) :
    s.admitted.count (user, day) ≤ settings.aiPlansPerDay := by
  obtain ⟨counted, budget⟩ := calls_of_reachable reached
  have steady : Steady s.counters.answers (planKey format user day) daySeconds :=
    fun entry member same => ⟨(budget entry member user day same).1,
      (budget entry member user day same).2.1⟩
  have confined : Confined s.counters.answers (planKey format user day) daySeconds
      (settings.dayStart day) :=
    fun entry member same => ⟨(budget entry member user day same).2.1,
      day_eq_iff.mp (budget entry member user day same).2.2⟩
  have granted := AnsweredRun.grants_confined small counted steady confined
  have shown := plans_granted user day reached
  omega

/-- Days by their number, the 4th of October 2024 by its date. -/
def namedDay (day : Int) : String :=
  if day = 20000 then "20241004" else "day " ++ toString (Encodable.encode day)

theorem namedDay_injective : Function.Injective namedDay := by
  intro day today same
  have apart : ∀ n : Nat, "20241004" ≠ "day " ++ toString n := by
    intro n equal
    have first := congrArg (fun text => text.toList.head?) equal
    simp at first
  unfold namedDay at same
  split at same <;> split at same
  · simp_all
  · exact absurd same (apart _)
  · exact absurd same.symm (apart _)
  · have chars := congrArg String.toList same
    simp only [String.toList_append, List.append_cancel_left_eq] at chars
    exact Encodable.encode_injective (Nat.repr_injective (String.toList_injective chars))

theorem namedDay_plain (day : Int) : ':' ∉ (namedDay day).toList := by
  unfold namedDay
  split
  · decide
  · rw [String.toList_append, List.mem_append, not_or]
    exact ⟨by decide, Text.number_plain⟩

def namedDays : DayFormat := ⟨namedDay, namedDay_injective, namedDay_plain⟩

/-- The counters start ten seconds before the day, with three plans and ten tokens a day. -/
def eve : BudgetSettings :=
  { epoch := 20000 * 86400 - 10, aiPlansPerDay := 3, dailyAiTokenQuota := 10 }

/-- A request from the day before and three of the day, which read the tokens of the first of them
alone; a fourth is refused. -/
def overnight : List BudgetAction :=
  [.ask 1 "trip" 0, .ask 1 "trip" 11, .check 0 12, .check 0 13, .record 1 4 5 14,
    .ask 1 "trip" 15, .check 0 16, .ask 1 "trip" 17, .check 0 18,
    .record 0 9 0 19, .record 0 9 0 20, .record 0 9 0 21, .ask 1 "trip" 22]

def rested : BudgetRun := { counters := ⟨⟨{}, 0, []⟩, []⟩ }

theorem rested_initial : (machine namedDays eve).initial rested :=
  ⟨⟨⟨le_rfl, rfl, rfl⟩, rfl⟩, rfl, rfl, rfl⟩

theorem plans_limited_overnight : ∃ s : BudgetRun,
    (machine namedDays eve).run rested overnight = some s ∧ s.asking = [] ∧
      s.admitted = [(1, 19999), (1, 20000), (1, 20000), (1, 20000)] ∧
      s.admitted.count (1, 20000) ≤ 3 := by
  have ran : ∃ s, (machine namedDays eve).run rested overnight = some s ∧ s.asking = [] ∧
      s.admitted = [(1, 19999), (1, 20000), (1, 20000), (1, 20000)] := by decide +kernel
  obtain ⟨s, ran, refused, admitted⟩ := ran
  exact ⟨s, ran, refused, admitted, plans_limited namedDays eve s (by decide)
    (Machine.reachable_of_run _ rested_initial ran) 1 20000⟩

/-- The requests of the user that may still spend on a day without reading its budget again. -/
def load (s : BudgetRun) (user : Nat) (day : Int) : Nat :=
  s.running.count user + s.asking.countP fun asker => asker.user = user && asker.day ≠ day

theorem load_le_inFlight : load s user day ≤ inFlight s user := by
  rw [load, inFlight, Nat.add_comm]
  refine Nat.add_le_add_right (List.countP_mono_left fun asker _ counted => ?_) _
  exact (Bool.and_eq_true .. ▸ counted).1

/-- What has been recorded for a user and a day, beside the budget. The counter of the day holds all
of it as long as the day has not ended. -/
structure Spent (format : DayFormat) (settings : BudgetSettings) (user : Nat) (day : Int)
    (most each : Nat) (s : BudgetRun) : Prop where
  tracks : s.counters.run.Tracks
  known : ∀ asker ∈ s.asking, asker.day ≤ settings.day s.counters.run.now
  few : inFlight s user ≤ most
  unspent : settings.day s.counters.run.now < day → recorded format s user day = 0
  gathered : settings.day s.counters.run.now ≤ day →
    s.counters.Gathered (tokenKey format user day) daySeconds (settings.dayStart day)
  covered : settings.day s.counters.run.now ≤ day →
    Covered settings.dailyAiTokenQuota most each (recorded format s user day) (load s user day)
  bound : recorded format s user day ≤ settings.dailyAiTokenQuota + most * each

namespace Spent
variable {most each place : Nat} {counters : AnsweredRun} {call : Increment}

theorem initial (initial : (machine format settings).initial s) :
    Spent format settings user day most each s := by
  obtain ⟨counters, asking, running, -⟩ := initial
  have nothing : recorded format s user day = 0 := by simp [recorded, total, counters.1.2.2]
  have positive : (0 : Int) ≤ settings.dailyAiTokenQuota := Int.natCast_nonneg _
  refine ⟨.initial counters.1, ?_, ?_, fun _ => nothing, fun _ => .initial counters, ?_, ?_⟩
  · simp [asking]
  · simp [inFlight, asking, running]
  · intro _
    rw [nothing]
    exact .inl positive
  · rw [nothing]
    positivity

/-- A call that adds nothing to the tokens of the day. -/
theorem advance (spent : Spent format settings user day most each s)
    (counted : answeredMachine.step s.counters call = some counters)
    (own : call.key = tokenKey format user day → settings.day call.now ≤ day →
      call.ttlSeconds = daySeconds ∧ settings.day call.now = day)
    (nothing : call.key = tokenKey format user day → call.amount = 0) :
    Spent format settings user day most each { s with counters := counters } := by
  obtain ⟨ordered, now, -⟩ := AnsweredRun.clock_step counted
  have later : settings.day s.counters.run.now ≤ settings.day counters.run.now :=
    day_mono (now ▸ ordered)
  have kept : recorded format { s with counters := counters } user day =
      recorded format s user day := by
    by_cases mine : call.key = tokenKey format user day
    · obtain ⟨-, same⟩ | ⟨-, joined⟩ := AnsweredRun.answer_cases spent.tracks counted
      · simp only [recorded, same]
      · simp only [recorded, joined, ← mine, total_own, nothing mine, add_zero]
    · exact AnsweredRun.total_step spent.tracks counted mine
  refine ⟨spent.tracks.step (AnsweredRun.step_eq counted).1, ?_, spent.few, ?_, ?_, ?_, ?_⟩
  · exact fun asker member => (spent.known asker member).trans later
  · exact fun before => kept.trans (spent.unspent (later.trans_lt before))
  · intro upTo
    refine (spent.gathered (later.trans upTo)).step counted fun mine => ?_
    rw [now] at upTo
    obtain ⟨duration, today⟩ := own mine upTo
    exact ⟨duration, day_eq_iff.mp today⟩
  · intro upTo
    rw [kept]
    exact spent.covered (later.trans upTo)
  · exact kept.le.trans spent.bound

/-- A request is counted as a plan of the day on which it asks. -/
theorem ask (spent : Spent format settings user day most each s) (asker : Asking)
    (today : asker.day = settings.day s.counters.run.now)
    (room : asker.user = user → inFlight s user < most) :
    Spent format settings user day most each { s with asking := s.asking ++ [asker] } := by
  refine { spent with known := ?_, few := ?_, covered := fun upTo => ?_ }
  · intro other member
    rcases List.mem_append.mp member with earlier | last
    · exact spent.known other earlier
    · exact (List.mem_singleton.mp last ▸ today).le
  · have few := spent.few
    rw [inFlight] at few room ⊢
    rw [List.countP_append, List.countP_singleton]
    dsimp only
    split
    · rename_i own
      have := room (of_decide_eq_true own)
      omega
    · exact few
  · by_cases early : settings.day s.counters.run.now < day
    · exact .inl ((spent.unspent early).trans_le (Int.natCast_nonneg _))
    · have same : asker.day = day := today.trans (le_antisymm upTo (not_lt.mp early))
      have counted : load { s with asking := s.asking ++ [asker] } user day = load s user day := by
        simp [load, List.countP_append, same]
      rw [counted]
      exact spent.covered upTo

/-- A request reads the tokens of its day and runs or is refused. -/
theorem check (spent : Spent format settings user day most each s) {asker : Asking}
    (found : s.asking[place]? = some asker) (passes : Prop) [Decidable passes]
    (read : passes → asker.user = user → asker.day = day → settings.day s.counters.run.now ≤ day →
      recorded format s user day ≤ settings.dailyAiTokenQuota)
    (admitted : List (Nat × Int)) :
    Spent format settings user day most each
      { s with
        asking := s.asking.eraseIdx place
        running := s.running ++ if passes then [asker.user] else []
        admitted := admitted } := by
  have left := countP_eraseIdx (p := fun asker : Asking => asker.user = user) found
  have away := countP_eraseIdx (p := fun asker : Asking => asker.user = user && asker.day ≠ day) found
  refine { spent with known := ?_, few := ?_, covered := fun upTo => ?_ }
  · exact fun other member => spent.known other (List.mem_of_mem_eraseIdx member)
  · have few := spent.few
    simp only [inFlight, decide_eq_true_eq] at left few ⊢
    rw [List.count_append]
    by_cases run : passes
    · rw [if_pos run, List.count_singleton]
      simp only [beq_iff_eq]
      omega
    · rw [if_neg run, List.count_nil]
      omega
  · have covered := spent.covered upTo
    by_cases mine : asker.user = user ∧ asker.day = day ∧ passes
    · obtain ⟨own, same, run⟩ := mine
      exact .inl (read run own same upTo)
    -- the load stays, or one request less is in it
    rw [load, away] at covered
    rw [load, List.count_append]
    by_cases run : passes
    · rw [if_pos run, List.count_singleton]
      by_cases own : asker.user = user
      · have differs : asker.day ≠ day := fun same => mine ⟨own, same, run⟩
        simp only [own, differs, ne_eq, not_false_eq_true, decide_true, Bool.and_self, if_true,
          beq_self_eq_true] at covered ⊢
        rwa [Nat.add_right_comm, Nat.add_assoc]
      · simpa [own, recorded] using covered
    · rw [if_neg run, List.count_nil]
      split at covered
      · exact covered.leave (Int.natCast_nonneg _)
      · exact covered

/-- A run ends without a record. -/
theorem leave (spent : Spent format settings user day most each s)
    (found : s.running[place]? = some other) :
    Spent format settings user day most each { s with running := s.running.eraseIdx place } := by
  have left := countP_eraseIdx (p := (· == user)) found
  simp only [← List.count_eq_countP] at left
  refine { spent with few := ?_, covered := fun upTo => ?_ }
  · have few := spent.few
    rw [inFlight] at few ⊢
    dsimp only
    omega
  · have covered := spent.covered upTo
    rw [load, left] at covered
    split at covered
    · rw [Nat.add_right_comm] at covered
      exact covered.leave (Int.natCast_nonneg _)
    · exact covered

/-- A run ends and its tokens are recorded on the day it ends. -/
theorem record (spent : Spent format settings user day most each s) {amount : Nat}
    (found : s.running[place]? = some other) (small : other = user → amount ≤ each)
    (counted : answeredMachine.step s.counters
      ⟨tokenKey format other (settings.day now), daySeconds, amount, now⟩ = some counters) :
    Spent format settings user day most each
      { s with counters := counters, running := s.running.eraseIdx place } := by
  obtain ⟨ordered, clock, -⟩ := AnsweredRun.clock_step counted
  dsimp only at ordered clock
  by_cases mine : other = user ∧ settings.day now = day
  · obtain ⟨rfl, rfl⟩ := mine
    have later : settings.day s.counters.run.now ≤ settings.day now := day_mono ordered
    have gathered := spent.gathered later
    have inside := day_eq_iff.mp (rfl : settings.day now = settings.day now)
    have left := countP_eraseIdx (p := (· == other)) found
    simp only [← List.count_eq_countP, beq_self_eq_true, if_true] at left
    have positive : (0 : Int) ≤ each := Int.natCast_nonneg _
    have covered := spent.covered later
    have few : load s other (settings.day now) ≤ most := load_le_inFlight.trans spent.few
    have fewer : inFlight { s with running := s.running.eraseIdx place } other ≤
        inFlight s other := by
      rw [inFlight, inFlight, left]
      exact Nat.add_le_add_left (Nat.le_succ _) _
    rw [load, left, Nat.add_right_comm] at covered few
    have settled : Covered settings.dailyAiTokenQuota most each
        (total counters.run.history (tokenKey format other (settings.day now)))
        (load { s with running := s.running.eraseIdx place } other (settings.day now)) := by
      obtain ⟨-, same⟩ | ⟨-, added⟩ := gathered.answer counted inside.2
      · rw [same]
        exact covered.leave positive
      · rw [added]
        have each := Int.ofNat_le.mpr (small rfl)
        exact covered.settle (by exact_mod_cast few) each positive
    refine ⟨spent.tracks.step (AnsweredRun.step_eq counted).1, ?_, fewer.trans spent.few, ?_, ?_,
      fun _ => settled, settled.bound positive (Int.natCast_nonneg _)⟩
    · intro asker member
      rw [clock]
      exact (spent.known asker member).trans later
    · intro before
      rw [clock] at before
      exact absurd before (lt_irrefl _)
    · exact fun _ => gathered.step counted fun _ => ⟨rfl, inside⟩
  · refine (spent.advance counted ?_ ?_).leave found
    · intro same upTo
      exact ⟨rfl, (key_inj same).2⟩
    · intro same
      exact absurd ⟨(key_inj same).1, (key_inj same).2⟩ mine

end Spent

/-- One action of the user or of others. -/
theorem Spent.step {most each : Nat} (small : (settings.dailyAiTokenQuota : Int) ≤ failClosed)
    (spent : Spent format settings user day most each s) (meets : moderate user most each s action = true)
    (stepped : (machine format settings).step s action = some t) :
    Spent format settings user day most each t := by
  cases action with
  | ask other text now =>
      obtain ⟨counters, counted, rfl⟩ := Option.map_eq_some_iff.mp stepped
      have plans : ∀ {P : Prop}, planKey format other (settings.day now) = tokenKey format user day → P :=
        fun same => absurd same planKey_ne_tokenKey
      have moved := spent.advance counted plans plans
      have clock := (AnsweredRun.clock_step counted).2.1
      split
      · simpa using moved
      · have few : other = user → inFlight s user < most :=
          fun own => by simpa [moderate, own] using meets
        exact moved.ask ⟨other, settings.day now, text⟩ (by rw [clock]; rfl) few
  | check place now =>
      simp only [machine] at stepped
      split at stepped
      · cases stepped
      rename_i asker found
      obtain ⟨counters, counted, rfl⟩ := Option.map_eq_some_iff.mp stepped
      obtain ⟨ordered, clock, -⟩ := AnsweredRun.clock_step counted
      have known := (spent.known asker (List.mem_of_getElem? found)).trans (day_mono ordered)
      have moved := spent.advance counted (fun same upTo => ?_) fun _ => rfl
      · refine moved.check found _ (fun passes own today upTo => ?_) _
        rw [clock] at upTo
        subst own today
        have inside := day_eq_iff.mp (le_antisymm upTo known)
        have gathered := spent.gathered ((day_mono ordered).trans upTo)
        obtain ⟨closed, -⟩ | ⟨value, added⟩ := gathered.answer counted inside.2
        · rw [closed] at passes
          exact absurd passes.1 (not_lt.mpr small)
        · rw [recorded, added, ← value]
          exact passes.1.le
      · obtain ⟨-, rfl⟩ := key_inj same
        exact ⟨rfl, le_antisymm upTo known⟩
  | record place inputTokens outputTokens now =>
      simp only [machine] at stepped
      split at stepped
      · cases stepped
      rename_i other found
      have few : other = user → inputTokens + outputTokens ≤ each :=
        fun own => by simpa [moderate, found, own] using meets
      split at stepped
      · cases stepped
        exact spent.leave found
      · obtain ⟨counters, counted, rfl⟩ := Option.map_eq_some_iff.mp stepped
        exact spent.record found few counted
  | fail place =>
      simp only [machine, Option.ite_none_right_eq_some, Option.some.injEq] at stepped
      obtain ⟨inside, rfl⟩ := stepped
      exact spent.leave (List.getElem?_eq_getElem inside)
  | other increment =>
      simp only [machine, Option.ite_none_left_eq_some, Option.map_eq_some_iff] at stepped
      obtain ⟨foreign, counters, counted, rfl⟩ := stepped
      have tokens : ∀ {P : Prop}, increment.key = tokenKey format user day → P :=
        fun same => absurd (same ▸ ownKey_tokenKey) foreign
      exact spent.advance counted tokens tokens

/-- A user who keeps a bounded number of requests in flight, each of a bounded number of tokens,
overdraws the tokens of no day by more than these requests together. -/
theorem tokens_overdrawn (format : DayFormat) (settings : BudgetSettings) (s : BudgetRun)
    (user most each : Nat) (small : (settings.dailyAiTokenQuota : Int) ≤ failClosed)
    (reached : ((machine format settings).restrict
      fun s action => moderate user most each s action = true).Reachable s)
    (day : Int) :
    recorded format s user day ≤ settings.dailyAiTokenQuota + most * each := by
  have spent : Spent format settings user day most each s := by
    apply reached.invariant
    · exact fun _ => .initial
    · intro s action t spent stepped
      obtain ⟨meets, stepped⟩ := Machine.restrict_step.mp stepped
      exact spent.step small meets stepped
  exact spent.bound

theorem tokens_overdrawn_overnight : ∃ s : BudgetRun,
    (machine namedDays eve).run rested overnight = some s ∧ recorded namedDays s 1 20000 = 36 ∧
      recorded namedDays s 1 20000 ≤ 10 + (3 : Nat) * (9 : Nat) := by
  have ran : ∃ s, (machine namedDays eve).run rested overnight = some s ∧
      recorded namedDays s 1 20000 = 36 := by decide +kernel
  obtain ⟨s, ran, spent⟩ := ran
  have met : (machine namedDays eve).along (moderate 1 3 9) rested overnight = true := by
    decide +kernel
  exact ⟨s, ran, spent, tokens_overdrawn namedDays eve s 1 3 9 (by decide)
    (Machine.reachable_restrict_of_run _ rested_initial ran (Machine.meetsAlong_of_along met)) 20000⟩

end BudgetRun
end MapGo.Server
