import MapGo.Pacing
import MapGo.Runtime.Counters

/-! What a limit on the answers of the rate counters lets through. A key whose calls add one each and
name one duration is counted in fixed windows; a key whose calls all come within one duration is
counted in a single window. -/
namespace MapGo.Runtime

open Assoc Transition Pacing

/-- A run of the counters with the answer of every call. -/
structure AnsweredRun where
  run : CounterRun
  answers : List (Increment × Int) := []
  deriving DecidableEq

def CounterRun.answer (s : CounterRun) (a : Increment) : Int :=
  (s.store.increment a.key a.now a.ttlSeconds a.amount).1

def answeredMachine : Machine AnsweredRun Increment where
  initial s := counterMachine.initial s.run ∧ s.answers = []
  step s a := (counterMachine.step s.run a).map fun run => ⟨run, s.answers ++ [(a, s.run.answer a)]⟩

/-- The call is for the key, and the limit lets it through. -/
def lets (key : String) (limit : Nat) (entry : Increment × Int) : Bool :=
  entry.1.key = key && entry.2 ≤ limit

/-- The times at which the limit let calls for the key through. -/
def grants (answers : List (Increment × Int)) (key : String) (limit : Nat) : List ℚ :=
  (answers.filter (lets key limit)).map fun entry => entry.1.now

/-- Every call for the key adds one and names the duration. -/
def Steady (answers : List (Increment × Int)) (key : String) (ttl : Int) : Prop :=
  ∀ entry ∈ answers, entry.1.key = key → entry.1.amount = 1 ∧ entry.1.ttlSeconds = ttl

/-- Every call for the key names the duration and comes within it after a moment. -/
def Confined (answers : List (Increment × Int)) (key : String) (ttl : Int) (since : ℚ) : Prop :=
  ∀ entry ∈ answers, entry.1.key = key →
    entry.1.ttlSeconds = ttl ∧ since ≤ entry.1.now ∧ entry.1.now < since + ttl

/-- All that was added to a key. -/
def total (history : List Increment) (key : String) : Int :=
  ((history.filter fun a => a.key = key).map Increment.amount).sum

theorem total_own {history : List Increment} {a : Increment} :
    total (history ++ [a]) a.key = total history a.key + a.amount := by
  simp [total, List.filter_append]

theorem total_other {history : List Increment} {a : Increment} {key : String}
    (other : a.key ≠ key) : total (history ++ [a]) key = total history key := by
  simp [total, List.filter_append, other]

namespace AnsweredRun
variable {s t : AnsweredRun} {a : Increment} {key : String} {limit : Nat} {ttl : Int} {since : ℚ}

theorem step_eq (stepped : answeredMachine.step s a = some t) :
    counterMachine.step s.run a = some t.run ∧ t.answers = s.answers ++ [(a, s.run.answer a)] := by
  obtain ⟨run, counted, rfl⟩ := Option.map_eq_some_iff.mp stepped
  exact ⟨counted, rfl⟩

theorem grants_step (stepped : answeredMachine.step s a = some t) :
    grants t.answers key limit = grants s.answers key limit ++
      if lets key limit (a, s.run.answer a) then [a.now] else [] := by
  rw [(step_eq stepped).2, grants, List.filter_append, List.map_append, grants]
  congr 1
  cases granted : lets key limit (a, s.run.answer a) <;> simp [granted]

theorem grants_grow (stepped : answeredMachine.step s a = some t) :
    (grants s.answers key limit).Sublist (grants t.answers key limit) := by
  rw [grants_step stepped]
  exact List.sublist_append_left ..

/-- A call is refused, or joins the window of its key. -/
theorem answer_cases (tracks : s.run.Tracks) (stepped : answeredMachine.step s a = some t) :
    (s.run.answer a = failClosed ∧ t.run.history = s.run.history) ∨
      (s.run.answer a =
        ((openWindow s.run.history a.key a.now).elim 0 fun w => w.amounts.sum) + a.amount ∧
      t.run.history = s.run.history ++ [a]) := by
  obtain ⟨counted, -⟩ := step_eq stepped
  simp only [counterMachine, Option.ite_none_left_eq_some, not_or, not_lt,
    Option.some.injEq] at counted
  obtain ⟨⟨ordered, -⟩, same⟩ := counted
  rw [← same]
  have value := tracks.increment_value (a := a) ordered
  have refuses : (s.run.store.tidy a.now).refuses a.key = true ↔ _ := tracks.refuses_iff ordered
  cases refused : (s.run.store.tidy a.now).refuses a.key with
  | true =>
      rw [if_pos (refuses.mp refused)] at value
      exact .inl ⟨value, by simp⟩
  | false =>
      rw [refused] at refuses
      rw [if_neg fun full => Bool.false_ne_true (refuses.mpr full)] at value
      exact .inr ⟨value, by simp⟩

theorem total_step (tracks : s.run.Tracks) (stepped : answeredMachine.step s a = some t)
    (other : a.key ≠ key) : total t.run.history key = total s.run.history key := by
  obtain ⟨-, same⟩ | ⟨-, joined⟩ := answer_cases tracks stepped
  · rw [same]
  · rw [joined, total_other other]

theorem clock_step (stepped : answeredMachine.step s a = some t) :
    s.run.now ≤ a.now ∧ t.run.now = a.now ∧ 0 < a.ttlSeconds := by
  obtain ⟨counted, -⟩ := step_eq stepped
  simp only [counterMachine, Option.ite_none_left_eq_some, not_or, not_lt, not_le,
    Option.some.injEq] at counted
  obtain ⟨⟨ordered, positive⟩, same⟩ := counted
  exact ⟨ordered, by rw [← same], positive⟩

theorem lets_failClosed (small : (limit : Int) < failClosed) (closed : s.run.answer a = failClosed) :
    lets key limit (a, s.run.answer a) = false := by
  rw [lets, closed, Bool.and_eq_false_iff]
  exact .inr (decide_eq_false (not_le.mpr small))

theorem lets_own : lets a.key limit (a, s.run.answer a) = decide (s.run.answer a ≤ limit) := by
  simp [lets]

theorem lets_other (other : a.key ≠ key) : lets key limit (a, s.run.answer a) = false := by
  simp [lets, other]

/-- What the limit let through for a key, beside the last window of the key. -/
structure Counted (s : AnsweredRun) (key : String) (limit : Nat) (ttl : Int) : Prop where
  tracks : s.run.Tracks
  unused : window s.run.history key = none → grants s.answers key limit = []
  opened : ∀ w, window s.run.history key = some w →
    w.amounts.sum = w.amounts.length ∧ w.expires - ttl ≤ s.run.now ∧
      Paced (ttl : ℚ) limit (grants s.answers key limit) w.expires w.amounts.length

theorem Counted.initial (initial : answeredMachine.initial s) : s.Counted key limit ttl where
  tracks := .initial initial.1
  unused _ := by simp [grants, initial.2]
  opened w found := by simp [window, initial.1.2.2] at found

/-- A call that the window does not count, for another key or refused, changes no grant. -/
theorem Counted.aside (counted : s.Counted key limit ttl)
    (stepped : answeredMachine.step s a = some t)
    (same : window t.run.history key = window s.run.history key)
    (refused : lets key limit (a, s.run.answer a) = false) : t.Counted key limit ttl := by
  obtain ⟨ordered, now, -⟩ := clock_step stepped
  have kept : grants t.answers key limit = grants s.answers key limit := by
    rw [grants_step stepped, refused]
    exact List.append_nil _
  refine ⟨counted.tracks.step (step_eq stepped).1, ?_, ?_⟩
  · rw [same, kept]
    exact counted.unused
  · intro w found
    rw [same] at found
    obtain ⟨sum, begun, paced⟩ := counted.opened w found
    rw [now, kept]
    exact ⟨sum, begun.trans ordered, paced⟩

/-- A call that the window counts. -/
theorem Counted.join (counted : s.Counted a.key limit a.ttlSeconds)
    (stepped : answeredMachine.step s a = some t) (one : a.amount = 1)
    (value : s.run.answer a =
      ((openWindow s.run.history a.key a.now).elim 0 fun w => w.amounts.sum) + a.amount)
    (joined : t.run.history = s.run.history ++ [a]) :
    t.Counted a.key limit a.ttlSeconds := by
  obtain ⟨ordered, now, positive⟩ := clock_step stepped
  have granted : grants t.answers a.key limit = _ := grants_step stepped
  have added : window t.run.history a.key = Window.add (window s.run.history a.key) a := by
    rw [joined, window_own]
  rw [lets_own] at granted
  refine ⟨counted.tracks.step (step_eq stepped).1, fun empty => ?_, fun w found => ?_⟩
  · rw [added, Window.add] at empty
    cases empty
  rw [now]
  rw [added, Window.add, Option.some.injEq] at found
  rw [openWindow] at value
  cases current : (window s.run.history a.key).filter fun w => a.now < w.expires with
  | some old =>
      obtain ⟨past, unended⟩ := Option.filter_eq_some_iff.mp current
      obtain ⟨sum, begun, paced⟩ := counted.opened old past
      rw [current, Option.map_some, Option.getD_some] at found
      rw [current, Option.elim_some, one, sum] at value
      obtain rfl := found
      rw [one]
      refine ⟨by simp [sum], begun.trans ordered, ?_⟩
      rw [granted, List.length_append, List.length_singleton]
      by_cases fits : s.run.answer a ≤ limit
      · rw [decide_eq_true fits, if_pos rfl]
        exact paced.grant (begun.trans ordered) (of_decide_eq_true unended) (by omega)
      · rw [decide_eq_false fits, if_neg Bool.false_ne_true, List.append_nil]
        exact paced.refuse
  | none =>
      rw [current, Option.map_none, Option.getD_none] at found
      rw [current, Option.elim_none, one, zero_add] at value
      obtain rfl := found
      rw [one]
      refine ⟨by simp, by simp, ?_⟩
      have room : decide (s.run.answer a ≤ limit) = true → 1 ≤ limit := by
        intro fits
        have := of_decide_eq_true fits
        omega
      have positive' : (0 : ℚ) < a.ttlSeconds := by exact_mod_cast positive
      rw [granted]
      cases past : window s.run.history a.key with
      | none =>
          have start : Paced (a.ttlSeconds : ℚ) limit [] a.now 0 := .empty
          rw [counted.unused past]
          exact start.renew positive' le_rfl _ room
      | some old =>
          obtain ⟨-, -, paced⟩ := counted.opened old past
          rw [past] at current
          have ended : old.expires ≤ a.now := by
            by_contra unended
            rw [Option.filter_some, if_pos (decide_eq_true (not_le.mp unended))] at current
            cases current
          exact paced.renew positive' ended _ room

theorem Counted.step (small : (limit : Int) < failClosed) (counted : s.Counted key limit ttl)
    (stepped : answeredMachine.step s a = some t)
    (steady : a.key = key → a.amount = 1 ∧ a.ttlSeconds = ttl) : t.Counted key limit ttl := by
  by_cases own : a.key = key
  · obtain ⟨one, rfl⟩ := steady own
    subst own
    obtain ⟨closed, same⟩ | ⟨value, joined⟩ := answer_cases counted.tracks stepped
    · exact counted.aside stepped (by rw [same]) (lets_failClosed small closed)
    · exact counted.join stepped one value joined
  · exact counted.aside stepped (CounterRun.window_step (step_eq stepped).1 own).2 (lets_other own)

theorem counted_of_reachable (small : (limit : Int) < failClosed)
    (reached : answeredMachine.Reachable s) (steady : Steady s.answers key ttl) :
    s.Counted key limit ttl := by
  revert steady
  apply reached.invariant (P := fun s => Steady s.answers key ttl → s.Counted key limit ttl)
  · exact fun s initial _ => .initial initial
  · intro s a t ih stepped steady
    rw [(step_eq stepped).2] at steady
    refine (ih fun entry member => steady entry (List.mem_append_left _ member)).step small
      stepped fun own => ?_
    exact steady _ (List.mem_append_right _ (List.mem_singleton_self _)) own

/-- A limit on steady calls lets at most twice its number through in a period of their duration. -/
theorem grants_within (small : (limit : Int) < failClosed) (reached : answeredMachine.Reachable s)
    (steady : Steady s.answers key ttl) (since : ℚ) :
    within (grants s.answers key limit) since (since + ttl) ≤ 2 * limit := by
  have counted := counted_of_reachable small reached steady
  cases found : window s.run.history key with
  | none =>
      rw [counted.unused found]
      exact Nat.zero_le _
  | some w => exact (counted.opened w found).2.2.spread since

/-- All that was added to a key is in its last window, which outlasts the period. -/
structure Gathered (s : AnsweredRun) (key : String) (ttl : Int) (since : ℚ) : Prop where
  tracks : s.run.Tracks
  unused : window s.run.history key = none → total s.run.history key = 0
  opened : ∀ w, window s.run.history key = some w →
    w.amounts.sum = total s.run.history key ∧ since + ttl ≤ w.expires

theorem Gathered.initial (initial : answeredMachine.initial s) : s.Gathered key ttl since where
  tracks := .initial initial.1
  unused _ := by simp [total, initial.1.2.2]
  opened w found := by simp [window, initial.1.2.2] at found

theorem Gathered.open_sum (gathered : s.Gathered a.key ttl since) (early : a.now < since + ttl) :
    ((openWindow s.run.history a.key a.now).elim 0 fun w => w.amounts.sum) =
      total s.run.history a.key := by
  rw [openWindow]
  cases past : window s.run.history a.key with
  | none => exact (gathered.unused past).symm
  | some w =>
      obtain ⟨sum, late⟩ := gathered.opened w past
      rw [Option.filter_some, if_pos (decide_eq_true (early.trans_le late))]
      exact sum

/-- In the period a call answers what has been added so far, or is refused. -/
theorem Gathered.answer (gathered : s.Gathered a.key ttl since)
    (stepped : answeredMachine.step s a = some t) (early : a.now < since + ttl) :
    (s.run.answer a = failClosed ∧ t.run.history = s.run.history) ∨
      (s.run.answer a = total s.run.history a.key + a.amount ∧
        total t.run.history a.key = total s.run.history a.key + a.amount) := by
  obtain closed | ⟨value, joined⟩ := answer_cases gathered.tracks stepped
  · exact .inl closed
  · rw [gathered.open_sum early] at value
    exact .inr ⟨value, by rw [joined, total_own]⟩

theorem Gathered.step (gathered : s.Gathered key ttl since)
    (stepped : answeredMachine.step s a = some t)
    (confined : a.key = key →
      a.ttlSeconds = ttl ∧ since ≤ a.now ∧ a.now < since + ttl) : t.Gathered key ttl since := by
  have tracks := gathered.tracks.step (step_eq stepped).1
  by_cases own : a.key = key
  · obtain ⟨rfl, late, early⟩ := confined own
    subst own
    obtain ⟨-, same⟩ | ⟨-, joined⟩ := answer_cases gathered.tracks stepped
    · refine ⟨tracks, ?_, ?_⟩ <;> rw [same]
      · exact gathered.unused
      · exact gathered.opened
    · refine ⟨tracks, fun empty => ?_, fun w found => ?_⟩
      · rw [joined, window_own, Window.add] at empty
        cases empty
      · rw [joined, window_own, Window.add, Option.some.injEq] at found
        rw [joined, total_own]
        cases past : window s.run.history a.key with
        | none =>
            rw [past, Option.filter_none, Option.map_none, Option.getD_none] at found
            obtain rfl := found
            simp [gathered.unused past, late]
        | some old =>
            obtain ⟨sum, outlasts⟩ := gathered.opened old past
            rw [past, Option.filter_some, if_pos (decide_eq_true (early.trans_le outlasts)),
              Option.map_some, Option.getD_some] at found
            obtain rfl := found
            simp [sum, outlasts]
  · obtain ⟨-, same⟩ := CounterRun.window_step (step_eq stepped).1 own
    refine ⟨tracks, ?_, ?_⟩ <;> rw [same, total_step gathered.tracks stepped own]
    · exact gathered.unused
    · exact gathered.opened

theorem gathered_of_reachable (reached : answeredMachine.Reachable s)
    (confined : Confined s.answers key ttl since) : s.Gathered key ttl since := by
  revert confined
  apply reached.invariant (P := fun s => Confined s.answers key ttl since → s.Gathered key ttl since)
  · exact fun s initial _ => .initial initial
  · intro s a t ih stepped confined
    rw [(step_eq stepped).2] at confined
    refine (ih fun entry member => confined entry (List.mem_append_left _ member)).step stepped
      fun own => ?_
    exact confined _ (List.mem_append_right _ (List.mem_singleton_self _)) own

/-- A limit on steady calls that all come within their duration lets at most its number through. -/
theorem grants_confined (small : (limit : Int) < failClosed)
    (reached : answeredMachine.Reachable s) (steady : Steady s.answers key ttl)
    (confined : Confined s.answers key ttl since) : (grants s.answers key limit).length ≤ limit := by
  -- no more are let through than have been counted
  suffices bound : s.Gathered key ttl since ∧ ((grants s.answers key limit).length : Int) ≤
      min (total s.run.history key) limit by
    exact_mod_cast bound.2.trans (min_le_right _ _)
  revert steady confined
  apply reached.invariant (P := fun s => Steady s.answers key ttl → Confined s.answers key ttl since →
    s.Gathered key ttl since ∧
      ((grants s.answers key limit).length : Int) ≤ min (total s.run.history key) limit)
  · intro s initial _ _
    exact ⟨.initial initial, by simp [grants, total, initial.1.2.2, initial.2]⟩
  · intro s a t ih stepped steady confined
    rw [(step_eq stepped).2] at steady confined
    obtain ⟨gathered, bound⟩ := ih (fun entry member => steady entry (List.mem_append_left _ member))
      fun entry member => confined entry (List.mem_append_left _ member)
    have last := List.mem_append_right s.answers (List.mem_singleton_self (a, s.run.answer a))
    refine ⟨gathered.step stepped (confined _ last), ?_⟩
    rw [grants_step stepped, List.length_append]
    by_cases own : a.key = key
    · subst own
      have one := (steady _ last rfl).1
      obtain ⟨rfl, -, early⟩ := confined _ last rfl
      obtain ⟨closed, same⟩ | ⟨value, added⟩ := gathered.answer stepped early
      · rw [lets_failClosed small closed, same]
        simpa using bound
      · dsimp only at one
        rw [lets_own, value, added, one]
        by_cases fits : total s.run.history a.key + 1 ≤ (limit : Int)
        · simp only [fits, decide_true, if_true, List.length_singleton, Nat.cast_add, Nat.cast_one]
          omega
        · simp only [fits, decide_false, Bool.false_eq_true, if_false, List.length_nil]
          omega
    · rw [lets_other own, total_step gathered.tracks stepped own]
      simpa using bound

end AnsweredRun
end MapGo.Runtime
