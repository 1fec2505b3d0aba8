import MapGo.Assoc
import MapGo.Transition

/-! The rate counters of the in-memory runtime store. Expired counters stay in the table until they
are purged or used again; the history of counted increments says what a counter should hold. -/
namespace MapGo.Runtime

open Assoc Transition

/-- The counters with their values and ends, in insertion order. -/
structure CounterStore where
  counters : List (String × (Int × ℚ)) := []
  counterOperations : Nat := 0
  maxCounters : Nat := 50000
  deriving DecidableEq

/-- The answer when no counter can be made. -/
def failClosed : Int := 2 ^ 63 - 1

namespace CounterStore
variable (s : CounterStore) (key : String) (now : ℚ)

/-- `_purge_expired_counters` -/
def purgeExpiredCounters : CounterStore :=
  { s with counters := s.counters.filter fun counter => now < counter.2.2 }

/-- The purge at every 256th operation, and at each one of a full table. -/
def tidy : CounterStore :=
  let s := { s with counterOperations := s.counterOperations + 1 }
  if s.counterOperations % 256 = 0 ∨ s.maxCounters ≤ s.counters.length then
    s.purgeExpiredCounters now
  else s

/-- No place is left for the key. -/
def refuses : Bool :=
  (s.counters.lookup key).isNone && decide (s.maxCounters ≤ s.counters.length)

def increment (ttlSeconds amount : Int) : Int × CounterStore :=
  let s := s.tidy now
  if s.refuses key then (failClosed, s)
  else
    let (value, expires) := (s.counters.lookup key).getD (0, 0)
    let (value, expires) := if expires ≤ now then (0, now + ttlSeconds) else (value, expires)
    (value + amount, { s with counters := assign key (value + amount, expires) s.counters })

/-- The counter of a key, unless it is over. -/
def live : Option (Int × ℚ) := (s.counters.lookup key).filter fun counter => now < counter.2

end CounterStore

/-- A call of `increment`. -/
structure Increment where
  key : String
  ttlSeconds : Int
  amount : Int := 1
  now : ℚ
  deriving DecidableEq, Repr

/-- The amounts that were added to a key since its counter began. -/
structure Window where
  amounts : List Int
  expires : ℚ

def Window.counter (w : Window) : Int × ℚ := (w.amounts.sum, w.expires)

/-- An increment joins the window that is open, or begins one. -/
def Window.add (w : Option Window) (a : Increment) : Option Window :=
  some (((w.filter fun w => a.now < w.expires).map fun w =>
    { w with amounts := w.amounts ++ [a.amount] }).getD ⟨[a.amount], a.now + a.ttlSeconds⟩)

/-- The last window of a key. -/
def window (history : List Increment) (key : String) : Option Window :=
  (history.filter fun a => a.key = key).foldl Window.add none

/-- The window of a key that has not expired. -/
def openWindow (history : List Increment) (key : String) (now : ℚ) : Option Window :=
  (window history key).filter fun w => now < w.expires

def activeKeys (history : List Increment) (now : ℚ) : List String :=
  (history.map Increment.key).dedup.filter fun key => (openWindow history key now).isSome

/-- A store with the history of the increments that were counted. -/
structure CounterRun where
  store : CounterStore
  now : ℚ
  history : List Increment := []
  deriving DecidableEq

/-- Increments under a clock that does not go back. -/
def counterMachine : Machine CounterRun Increment where
  initial s := 0 ≤ s.now ∧ s.store.counters = [] ∧ s.history = []
  step s a :=
    if a.now < s.now ∨ a.ttlSeconds ≤ 0 then none
    else some
      { store := (s.store.increment a.key a.now a.ttlSeconds a.amount).2
        now := a.now
        history := if (s.store.tidy a.now).refuses a.key then s.history else s.history ++ [a] }

section
variable {s t : CounterStore} {key other : String} {now later : ℚ} {history : List Increment}
  {a : Increment}

theorem live_tidy (distinct : Distinct s.counters) (ordered : now ≤ later) :
    (s.tidy now).live key later = s.live key later := by
  unfold CounterStore.tidy
  dsimp only
  split
  · unfold CounterStore.live CounterStore.purgeExpiredCounters
    rw [distinct.lookup_filter]
    cases s.counters.lookup key with
    | none => rfl
    | some counter =>
        rw [Option.filter_some, Option.filter_some]
        by_cases unexpired : later < counter.2
        · simp [unexpired, lt_of_le_of_lt ordered unexpired]
        · simpa [unexpired] using fun _ => not_lt.mp unexpired
  · rfl

theorem distinct_tidy (distinct : Distinct s.counters) : Distinct (s.tidy now).counters := by
  unfold CounterStore.tidy
  dsimp only
  split
  · exact distinct.filter
  · exact distinct

theorem length_tidy : (s.tidy now).counters.length ≤ s.counters.length := by
  unfold CounterStore.tidy
  dsimp only
  split
  · exact List.length_filter_le ..
  · exact le_rfl

theorem maxCounters_tidy : (s.tidy now).maxCounters = s.maxCounters := by
  unfold CounterStore.tidy
  dsimp only
  split <;> rfl

/-- A table that is still full after the purge has live counters alone. -/
theorem tidy_of_full (full : s.maxCounters ≤ (s.tidy now).counters.length) :
    (s.tidy now).counters = s.counters.filter fun counter => now < counter.2.2 := by
  have size : s.maxCounters ≤ s.counters.length := full.trans length_tidy
  unfold CounterStore.tidy
  dsimp only
  rw [if_pos (.inr size)]
  rfl

/-- What an increment that is not refused returns and stores. -/
theorem increment_counted (start : 0 ≤ now) (distinct : Distinct s.counters)
    {ttlSeconds amount : Int} (counted : (s.tidy now).refuses key = false) :
    s.increment key now ttlSeconds amount =
      let counter := (s.live key now).elim (amount, now + ttlSeconds)
        fun counter => (counter.1 + amount, counter.2)
      (counter.1, { s.tidy now with counters := assign key counter (s.tidy now).counters }) := by
  have same : (s.tidy now).live key now = s.live key now := live_tidy distinct le_rfl
  rw [← same]
  unfold CounterStore.increment CounterStore.live
  dsimp only
  rw [counted, if_neg Bool.false_ne_true]
  cases found : (s.tidy now).counters.lookup key with
  | none => simp [start]
  | some counter =>
      obtain ⟨value, expires⟩ := counter
      by_cases ended : expires ≤ now
      · simp [ended, Option.filter_some, not_lt.mpr ended]
      · simp [ended, Option.filter_some, not_le.mp ended]

theorem window_other (different : a.key ≠ key) :
    window (history ++ [a]) key = window history key := by
  simp [window, List.filter_append, different]

theorem window_own : window (history ++ [a]) a.key = Window.add (window history a.key) a := by
  simp [window, List.filter_append]

/-- The counter of a window to which an increment was added. -/
theorem counter_add : (Window.add (window history a.key) a).map Window.counter =
    some (((openWindow history a.key a.now).map Window.counter).elim
      (a.amount, a.now + a.ttlSeconds) fun counter => (counter.1 + a.amount, counter.2)) := by
  unfold Window.add openWindow
  cases (window history a.key).filter fun w => a.now < w.expires with
  | none => simp [Window.counter]
  | some w => simp [Window.counter]

theorem key_of_window {w : Window} (found : window history key = some w) :
    key ∈ history.map Increment.key := by
  unfold window at found
  cases kept : history.filter fun a => a.key = key with
  | nil =>
      rw [kept] at found
      contradiction
  | cons a rest =>
      have member : a ∈ history.filter fun a => a.key = key := kept ▸ List.mem_cons_self
      obtain ⟨inside, same⟩ := List.mem_filter.mp member
      exact List.mem_map.mpr ⟨a, inside, of_decide_eq_true same⟩

end

namespace CounterRun
variable {s t : CounterRun} {a : Increment} {key : String} {later : ℚ}

/-- The live counters are those of the open windows. -/
structure Tracks (s : CounterRun) : Prop where
  start : 0 ≤ s.now
  distinct : Distinct s.store.counters
  bounded : s.store.counters.length ≤ s.store.maxCounters
  live : ∀ key later, s.now ≤ later →
    s.store.live key later = (openWindow s.history key later).map Window.counter

theorem Tracks.mem_activeKeys (tracks : s.Tracks) (ordered : s.now ≤ later) :
    key ∈ activeKeys s.history later ↔ (s.store.live key later).isSome = true := by
  rw [tracks.live key later ordered, Option.isSome_map, activeKeys, List.mem_filter, List.mem_dedup]
  refine and_iff_right_of_imp fun opened => ?_
  obtain ⟨w, opened⟩ := Option.isSome_iff_exists.mp opened
  exact key_of_window (Option.filter_eq_some_iff.mp opened).1

/-- The keys of a purged table are the active ones. -/
theorem Tracks.perm_activeKeys (tracks : s.Tracks) (ordered : s.now ≤ later) :
    ((s.store.counters.filter fun counter => later < counter.2.2).map Prod.fst).Perm
      (activeKeys s.history later) := by
  refine (List.perm_ext_iff_of_nodup tracks.distinct.filter
    ((List.nodup_dedup _).filter _)).mpr fun key => ?_
  have absent : (s.store.counters.filter fun counter => later < counter.2.2).lookup key = none ↔
      key ∉ (s.store.counters.filter fun counter => later < counter.2.2).map Prod.fst :=
    lookup_eq_none
  rw [tracks.distinct.lookup_filter] at absent
  change s.store.live key later = none ↔ _ at absent
  refine Iff.trans ?_ (tracks.mem_activeKeys ordered).symm
  rw [← not_iff_not, ← absent, Option.not_isSome_iff_eq_none]

/-- An increment is refused exactly if its key is not active and the table is full of active ones. -/
theorem Tracks.refuses_iff (tracks : s.Tracks) (ordered : s.now ≤ later) :
    (s.store.tidy later).refuses key = true ↔ openWindow s.history key later = none ∧
      s.store.maxCounters ≤ (activeKeys s.history later).length := by
  have size := (tracks.perm_activeKeys ordered).length_eq
  rw [List.length_map] at size
  have shown := tracks.live key later ordered
  rw [CounterStore.refuses, Bool.and_eq_true, Option.isNone_iff_eq_none, decide_eq_true_eq,
    maxCounters_tidy]
  constructor
  · rintro ⟨absent, full⟩
    have gone : s.store.live key later = none := by
      rw [← live_tidy tracks.distinct le_rfl, CounterStore.live, absent, Option.filter_none]
    rw [gone] at shown
    refine ⟨Option.map_eq_none_iff.mp shown.symm, ?_⟩
    rw [← size, ← tidy_of_full full]
    exact full
  · rintro ⟨closed, full⟩
    have occupied : s.store.maxCounters ≤ s.store.counters.length := by
      rw [← size] at full
      exact full.trans (List.length_filter_le ..)
    have purged : (s.store.tidy later).counters =
        s.store.counters.filter fun counter => later < counter.2.2 := by
      unfold CounterStore.tidy
      dsimp only
      rw [if_pos (.inr occupied)]
      rfl
    rw [purged, size, tracks.distinct.lookup_filter]
    rw [closed, Option.map_none] at shown
    exact ⟨shown, full⟩

theorem Tracks.initial (initial : counterMachine.initial s) : s.Tracks := by
  obtain ⟨start, empty, fresh⟩ := initial
  refine ⟨start, ?_, ?_, fun key later _ => ?_⟩
  · rw [empty]
    exact List.nodup_nil
  · simp [empty]
  · simp [CounterStore.live, openWindow, window, empty, fresh]

/-- An increment that is refused changes no live counter. -/
theorem Tracks.refused (tracks : s.Tracks) (ordered : s.now ≤ a.now) :
    Tracks { store := s.store.tidy a.now, now := a.now, history := s.history } where
  start := tracks.start.trans ordered
  distinct := distinct_tidy tracks.distinct
  bounded := by
    rw [maxCounters_tidy]
    exact length_tidy.trans tracks.bounded
  live key later late := by
    rw [live_tidy tracks.distinct late]
    exact tracks.live key later (ordered.trans late)

/-- A counted increment extends the window of its key alone. -/
theorem Tracks.counted (tracks : s.Tracks) (ordered : s.now ≤ a.now)
    (counted : (s.store.tidy a.now).refuses a.key = false) :
    Tracks { store := (s.store.increment a.key a.now a.ttlSeconds a.amount).2, now := a.now,
             history := s.history ++ [a] } := by
  have start := tracks.start.trans ordered
  rw [increment_counted start tracks.distinct counted, tracks.live a.key a.now ordered]
  refine ⟨start, (distinct_tidy tracks.distinct).assign, ?_, fun key later late => ?_⟩
  · have size : (s.store.tidy a.now).counters.length ≤ s.store.maxCounters :=
      length_tidy.trans tracks.bounded
    rw [length_assign, maxCounters_tidy]
    split
    · exact size
    · rename_i fresh
      rw [← lookup_eq_none] at fresh
      simp only [CounterStore.refuses, fresh, Option.isNone_none, Bool.true_and,
        decide_eq_false_iff_not, maxCounters_tidy] at counted
      omega
  · unfold CounterStore.live
    rw [lookup_assign]
    split
    · rename_i own
      subst own
      rw [← counter_add, openWindow, window_own, Option.filter_map]
      rfl
    · rename_i different
      have kept := tracks.live key later (ordered.trans late)
      rw [← live_tidy tracks.distinct late] at kept
      rw [openWindow, window_other (Ne.symm different)]
      exact kept

theorem Tracks.step (tracks : s.Tracks) (stepped : counterMachine.step s a = some t) :
    t.Tracks := by
  simp only [counterMachine, Option.ite_none_left_eq_some, not_or, not_lt,
    Option.some.injEq] at stepped
  obtain ⟨⟨ordered, -⟩, rfl⟩ := stepped
  cases refused : (s.store.tidy a.now).refuses a.key with
  | true =>
      have same : (s.store.increment a.key a.now a.ttlSeconds a.amount).2 =
          s.store.tidy a.now := by
        rw [CounterStore.increment, refused]
        rfl
      rw [same]
      exact tracks.refused ordered
  | false => exact tracks.counted ordered refused

theorem Tracks.reachable (reached : counterMachine.Reachable s) : s.Tracks :=
  reached.invariant (fun _ => Tracks.initial) Tracks.step

theorem window_step (stepped : counterMachine.step s a = some t) (different : a.key ≠ key) :
    s.now ≤ t.now ∧ window t.history key = window s.history key := by
  simp only [counterMachine, Option.ite_none_left_eq_some, not_or, not_lt,
    Option.some.injEq] at stepped
  obtain ⟨⟨ordered, -⟩, rfl⟩ := stepped
  refine ⟨ordered, ?_⟩
  dsimp only
  split
  · rfl
  · exact window_other different

theorem window_run (script : List Increment) (others : ∀ a ∈ script, a.key ≠ key)
    (ran : counterMachine.run s script = some t) :
    s.now ≤ t.now ∧ window t.history key = window s.history key := by
  induction script generalizing s with
  | nil =>
      obtain rfl := Option.some.inj ran
      exact ⟨le_rfl, rfl⟩
  | cons a rest ih =>
      obtain ⟨middle, first, ran⟩ := Option.bind_eq_some_iff.mp ran
      obtain ⟨ordered, same⟩ := window_step first (others a List.mem_cons_self)
      obtain ⟨later, kept⟩ := ih (fun b member => others b (List.mem_cons_of_mem a member)) ran
      exact ⟨ordered.trans later, kept.trans same⟩

/-- Increments of other keys leave a live counter as it is. -/
theorem Tracks.run_others (tracks : s.Tracks) (script : List Increment)
    (others : ∀ a ∈ script, a.key ≠ key) (ran : counterMachine.run s script = some t)
    (late : t.now ≤ later) : t.store.live key later = s.store.live key later := by
  have reached : t.Tracks :=
    (Machine.reaches_of_run script ran).invariant (P := Tracks) Tracks.step tracks
  obtain ⟨ordered, same⟩ := window_run script others ran
  rw [reached.live key later late, tracks.live key later (ordered.trans late), openWindow, same]
  rfl

/-- What an increment returns. -/
theorem Tracks.increment_value (tracks : s.Tracks) (ordered : s.now ≤ a.now) :
    (s.store.increment a.key a.now a.ttlSeconds a.amount).1 =
      if openWindow s.history a.key a.now = none ∧
          s.store.maxCounters ≤ (activeKeys s.history a.now).length then failClosed
      else ((openWindow s.history a.key a.now).elim 0 fun w => w.amounts.sum) + a.amount := by
  have refuses : (s.store.tidy a.now).refuses a.key = true ↔ _ := tracks.refuses_iff ordered
  cases refused : (s.store.tidy a.now).refuses a.key with
  | true =>
      rw [if_pos (refuses.mp refused), CounterStore.increment, refused]
      rfl
  | false =>
      rw [refused] at refuses
      rw [if_neg fun full => Bool.false_ne_true (refuses.mpr full),
        increment_counted (tracks.start.trans ordered) tracks.distinct refused,
        tracks.live a.key a.now ordered]
      cases openWindow s.history a.key a.now with
      | none => exact (zero_add a.amount).symm
      | some w => rfl

/-- In every run of increments the table keeps its bound, each call returns the sum of its key's
open window or fails closed, and calls for other keys change no live counter. -/
theorem counters_exact (reached : counterMachine.Reachable s) :
    s.store.counters.length ≤ s.store.maxCounters ∧
    (∀ a t, counterMachine.step s a = some t →
      (s.store.increment a.key a.now a.ttlSeconds a.amount).1 =
        if openWindow s.history a.key a.now = none ∧
            s.store.maxCounters ≤ (activeKeys s.history a.now).length then failClosed
        else ((openWindow s.history a.key a.now).elim 0 fun w => w.amounts.sum) + a.amount) ∧
    (∀ script key t later, counterMachine.run s script = some t →
      (∀ a ∈ script, a.key ≠ key) → t.now ≤ later →
      t.store.live key later = s.store.live key later) := by
  have tracks := Tracks.reachable reached
  refine ⟨tracks.bounded, fun a t stepped => ?_, fun script key t later ran others late =>
    tracks.run_others script others ran late⟩
  refine tracks.increment_value (not_lt.mp fun early => ?_)
  simp [counterMachine, early] at stepped

/-- A table of two keys after a flood. -/
def flooded : CounterRun where
  store :=
    { counters := [("ip:a", (3, 60)), ("ip:b", (1, 61))], counterOperations := 4
      maxCounters := 2 }
  now := 3
  history := [⟨"ip:a", 60, 1, 0⟩, ⟨"ip:b", 60, 1, 1⟩, ⟨"ip:a", 60, 2, 3⟩]

theorem counters_exact_flood : flooded.store.counters.length ≤ 2 ∧
    (flooded.store.increment "ip:c" 4 60 1).1 = failClosed ∧
    (flooded.store.increment "ip:a" 4 60 1).1 = 4 := by
  have ran : counterMachine.run ⟨{ maxCounters := 2 }, 0, []⟩
      [⟨"ip:a", 60, 1, 0⟩, ⟨"ip:b", 60, 1, 1⟩, ⟨"ip:c", 60, 1, 2⟩, ⟨"ip:a", 60, 2, 3⟩] =
        some flooded := by
    decide +kernel
  obtain ⟨bounded, values, -⟩ :=
    counters_exact (Machine.reachable_of_run _ ⟨le_rfl, rfl, rfl⟩ ran)
  refine ⟨bounded, (values ⟨"ip:c", 60, 1, 4⟩ _ rfl).trans ?_,
    (values ⟨"ip:a", 60, 1, 4⟩ _ rfl).trans ?_⟩ <;> decide +kernel

end CounterRun

end MapGo.Runtime
