import MapGo.Assoc
import MapGo.Basic

/-! The activity of a user. The tracks since the first of the last eight local weeks are counted by
day and by week, and the streak walks back over the days that were counted. -/
namespace MapGo.Server

/-- A calendar of local days, numbered from 1970-01-01: `local_date`, and the instant of a local
midnight. -/
structure Zone where
  localDate : Instant → Int
  midnight : Int → Instant
  begins : ∀ day instant, midnight day ≤ instant ↔ day ≤ localDate instant

/-- Eight hours ahead of UTC, as Asia/Shanghai has been since 1991. -/
def shanghai : Zone where
  localDate instant := (instant + 28800000000) / 86400000000
  midnight day := day * 86400000000 - 28800000000
  begins day instant := by
    rw [Int.le_ediv_iff_mul_le (by decide), sub_le_iff_le_add]

/-- `day - timedelta(days=day.weekday())`; the first day of the numbering is a Thursday. -/
def weekOf (day : Int) : Int := day - (day + 3) % 7

structure Track where
  distance : ℚ
  duration : Option ℚ
  createdAt : Instant
  deriving DecidableEq, Repr

structure Bucket where
  distance : ℚ := 0
  duration : ℚ := 0
  count : Nat := 0
  deriving DecidableEq, Repr

def Bucket.add (bucket : Bucket) (track : Track) : Bucket where
  distance := bucket.distance + track.distance
  duration := bucket.duration + track.duration.getD 0
  count := bucket.count + 1

abbrev Buckets := List (Int × Bucket)

def Buckets.add (buckets : Buckets) (day : Int) (track : Track) : Buckets :=
  Assoc.assign day (((buckets.lookup day).getD {}).add track) buckets

/-- `week_starts` -/
def weekStarts (today : Int) : List Int :=
  (List.range 8).reverse.map fun offset : Nat => weekOf today - 7 * offset

/-- `week_starts[0]` -/
def firstWeek (today : Int) : Int := weekOf today - 49

variable (zone : Zone) (tracks : List Track) (now : Instant)

/-- The rows of the query. -/
def activityRows : List Track :=
  tracks.filter fun track => zone.midnight (firstWeek (zone.localDate now)) ≤ track.createdAt

/-- One row of the loop, into `weekly_buckets` and `daily_buckets`. -/
def countRow (buckets : Buckets × Buckets) (track : Track) : Buckets × Buckets :=
  let day := zone.localDate track.createdAt
  let week := weekOf day
  (if week ∈ buckets.1.map Prod.fst then Buckets.add buckets.1 week track else buckets.1,
    Buckets.add buckets.2 day track)

/-- `while streak_cursor in activity_days`, for a number of rounds at most. -/
def walkBack (days : List Int) : Nat → Int → Nat
  | 0, _ => 0
  | rounds + 1, cursor => if cursor ∈ days then walkBack days rounds (cursor - 1) + 1 else 0

structure Activity where
  weekly : Buckets
  daily : Buckets
  currentStreakDays : Nat

/-- The activity part of `stats`. -/
def stats : Activity :=
  let today := zone.localDate now
  let (weekly, daily) := (activityRows zone tracks now).foldl (countRow zone)
    ((weekStarts today).map fun start => (start, {}), [])
  let days := daily.map Prod.fst
  { weekly := weekly
    daily := (List.range 30).reverse.map fun offset : Nat =>
      (today - offset, (daily.lookup (today - offset)).getD {})
    currentStreakDays :=
      walkBack days (days.length + 1) (if today ∈ days then today else today - 1) }

/-- A track was recorded on a local day. -/
def Active (day : Int) : Prop := ∃ track ∈ tracks, zone.localDate track.createdAt = day

/-- The days before a day and with it are active for a length, and no longer. -/
structure IsRun (active : Int → Prop) (last : Int) (length : Nat) : Prop where
  days : ∀ i < length, active (last - i)
  ends : ¬ active (last - length)

/-- The run that ends today, or yesterday if today is not active. -/
def IsStreak (active : Int → Prop) (today : Int) (length : Nat) : Prop :=
  (active today → IsRun active today length) ∧ (¬ active today → IsRun active (today - 1) length)

/-- Each of the eight weeks has the bucket of its tracks, and each track in them one week. -/
structure CountsWeeks (today : Int) (weekly : Buckets) : Prop where
  keys : weekly.map Prod.fst = weekStarts today
  counted : ∀ start ∈ weekStarts today, weekly.lookup start = some ((tracks.filter fun track =>
    weekOf (zone.localDate track.createdAt) = start).foldl Bucket.add {})
  once : ∀ track ∈ tracks, firstWeek today ≤ zone.localDate track.createdAt →
    zone.localDate track.createdAt < weekOf today + 7 →
    (weekStarts today).count (weekOf (zone.localDate track.createdAt)) = 1

variable {zone : Zone} {tracks rows : List Track} {now : Instant} {today : Int}

theorem mem_weekStarts {day : Int} : weekOf day ∈ weekStarts today ↔
    firstWeek today ≤ day ∧ day < weekOf today + 7 := by
  simp only [weekStarts, List.mem_map, List.mem_reverse, List.mem_range, firstWeek, weekOf]
  constructor
  · rintro ⟨offset, bound, same⟩
    omega
  · rintro ⟨after, before⟩
    exact ⟨((today + 3) / 7 - (day + 3) / 7).toNat, by omega, by omega⟩

theorem weekStarts_nodup (today : Int) : (weekStarts today).Nodup := by
  refine List.Nodup.map ?_ (List.nodup_reverse.mpr List.nodup_range)
  intro left right same
  simp only at same
  omega

/-- What the loop leaves of the weeks: every bucket has taken the rows of its week. -/
theorem weekly_spec (rows : List Track) (weekly daily : Buckets) :
    ((rows.foldl (countRow zone) (weekly, daily)).1.map Prod.fst = weekly.map Prod.fst) ∧
      ∀ start, (rows.foldl (countRow zone) (weekly, daily)).1.lookup start =
        (weekly.lookup start).map fun bucket => (rows.filter fun track =>
          weekOf (zone.localDate track.createdAt) = start).foldl Bucket.add bucket := by
  induction rows generalizing weekly daily with
  | nil => exact ⟨rfl, fun start => Option.map_id.symm ▸ rfl⟩
  | cons row rest ih =>
      let week := weekOf (zone.localDate row.createdAt)
      let counted := if week ∈ weekly.map Prod.fst then Buckets.add weekly week row else weekly
      obtain ⟨keys, lookups⟩ := ih counted (Buckets.add daily (zone.localDate row.createdAt) row)
      have kept : counted.map Prod.fst = weekly.map Prod.fst := by
        simp only [counted]
        split
        · rename_i present
          rw [Buckets.add, Assoc.keys_assign, if_pos present]
        · rfl
      refine ⟨keys.trans kept, fun start => (lookups start).trans ?_⟩
      by_cases own : week = start
      · subst own
        rw [List.filter_cons_of_pos (by simp [week])]
        by_cases present : week ∈ weekly.map Prod.fst
        · obtain ⟨bucket, found⟩ := Option.ne_none_iff_exists'.mp
            (mt Assoc.lookup_eq_none.mp (not_not.mpr present))
          simp only [counted, if_pos present, Buckets.add, Assoc.lookup_assign, found]
          rfl
        · simp only [counted, if_neg present, Assoc.lookup_eq_none.mpr present]
          rfl
      · rw [List.filter_cons_of_neg (by simpa [week] using own)]
        congr 1
        simp only [counted]
        split
        · rw [Buckets.add, Assoc.lookup_assign, if_neg (Ne.symm own)]
        · rfl

/-- The days of the loop are the days of the rows. -/
theorem daily_spec (rows : List Track) (weekly daily : Buckets) (day : Int) :
    day ∈ (rows.foldl (countRow zone) (weekly, daily)).2.map Prod.fst ↔
      day ∈ daily.map Prod.fst ∨ Active zone rows day := by
  induction rows generalizing weekly daily with
  | nil => simp [Active]
  | cons row rest ih =>
      rw [List.foldl_cons, countRow, ih, Buckets.add, Assoc.keys_assign]
      simp only [Active, List.exists_mem_cons_iff]
      split
      · rename_i present
        constructor
        · rintro (old | later)
          · exact .inl old
          · exact .inr (.inr later)
        · rintro (old | rfl | later)
          · exact .inl old
          · exact .inl present
          · exact .inr later
      · rw [List.mem_append, List.mem_singleton, or_assoc, eq_comm]

/-- The cutoff keeps the tracks since the first week. -/
theorem active_rows (day : Int) : Active zone (activityRows zone tracks now) day ↔
    firstWeek (zone.localDate now) ≤ day ∧ Active zone tracks day := by
  simp only [Active, activityRows, List.mem_filter, decide_eq_true_eq, zone.begins]
  constructor
  · rintro ⟨track, ⟨member, after⟩, rfl⟩
    exact ⟨after, track, member, rfl⟩
  · rintro ⟨after, track, member, rfl⟩
    exact ⟨track, ⟨member, after⟩, rfl⟩

theorem walkBack_run (days : List Int) (rounds : Nat) (cursor : Int) :
    (∀ i < walkBack days rounds cursor, cursor - i ∈ days) ∧
      (walkBack days rounds cursor < rounds → cursor - walkBack days rounds cursor ∉ days) := by
  induction rounds generalizing cursor with
  | zero =>
      refine ⟨fun i bound => absurd bound (Nat.not_lt_zero i), fun less => ?_⟩
      exact absurd less (Nat.not_lt_zero _)
  | succ rounds ih =>
      rw [walkBack]
      split
      · rename_i inside
        obtain ⟨days', ends⟩ := ih (cursor - 1)
        constructor
        · intro i bound
          cases i with
          | zero => simpa using inside
          | succ i =>
              have onward := days' i (by omega)
              rwa [sub_sub, add_comm 1, ← Nat.cast_succ] at onward
        · intro less
          have stop := ends (by omega)
          rwa [sub_sub, add_comm 1, ← Nat.cast_succ] at stop
      · rename_i outside
        exact ⟨fun i bound => absurd bound (Nat.not_lt_zero i), fun _ => by simpa using outside⟩

/-- The walk ends before its rounds do: it meets a day at most once. -/
theorem walkBack_isRun (days : List Int) (cursor : Int) :
    IsRun (· ∈ days) cursor (walkBack days (days.length + 1) cursor) := by
  obtain ⟨met, ends⟩ := walkBack_run days (days.length + 1) cursor
  refine ⟨met, ends ?_⟩
  generalize walkBack days (days.length + 1) cursor = length at met
  have distinct : ((List.range length).map fun i : Nat => cursor - i).Nodup := by
    refine List.Nodup.map ?_ List.nodup_range
    intro left right same
    simp only at same
    omega
  have within : ((List.range length).map fun i : Nat => cursor - i) ⊆ days := by
    intro day member
    obtain ⟨i, bound, rfl⟩ := List.mem_map.mp member
    exact met i (List.mem_range.mp bound)
  have size := (List.subperm_of_subset distinct within).length_le
  rw [List.length_map, List.length_range] at size
  omega

theorem stats_weekly (zone : Zone) (tracks : List Track) (now : Instant) :
    CountsWeeks zone tracks (zone.localDate now) (stats zone tracks now).weekly := by
  obtain ⟨keys, lookups⟩ := @weekly_spec zone (activityRows zone tracks now)
    ((weekStarts (zone.localDate now)).map fun start => (start, {})) []
  constructor
  · exact keys.trans (by simp [Function.comp_def])
  · intro start member
    have empty : ((weekStarts (zone.localDate now)).map fun start =>
        (start, ({} : Bucket))).lookup start = some {} := by
      generalize weekStarts (zone.localDate now) = starts at member
      induction starts with
      | nil => contradiction
      | cons first rest ih =>
          rw [List.map_cons, List.lookup_cons]
          by_cases same : start = first
          · simp [same]
          · rw [beq_eq_false_iff_ne.mpr same]
            exact ih (List.mem_of_ne_of_mem same member)
    -- Before the cutoff no track lies in one of the weeks.
    have rows : (activityRows zone tracks now).filter (fun track =>
        weekOf (zone.localDate track.createdAt) = start) =
          tracks.filter fun track => weekOf (zone.localDate track.createdAt) = start := by
      rw [activityRows, List.filter_filter]
      refine List.filter_congr fun track _ => ?_
      rw [Bool.and_eq_left_iff_imp]
      intro same
      obtain rfl := of_decide_eq_true same
      exact decide_eq_true ((zone.begins _ _).mpr (mem_weekStarts.mp member).1)
    exact (lookups start).trans (by rw [empty, rows]; rfl)
  · intro track member after before
    exact List.count_eq_one_of_mem (weekStarts_nodup _) (mem_weekStarts.mpr ⟨after, before⟩)

/-- The streak is the run of the days since the first week. -/
theorem stats_streak (zone : Zone) (tracks : List Track) (now : Instant) :
    IsStreak (fun day => firstWeek (zone.localDate now) ≤ day ∧ Active zone tracks day)
      (zone.localDate now) (stats zone tracks now).currentStreakDays := by
  let days := ((activityRows zone tracks now).foldl (countRow zone)
    ((weekStarts (zone.localDate now)).map fun start => (start, {}), [])).2.map Prod.fst
  have recorded (day : Int) : day ∈ days ↔
      firstWeek (zone.localDate now) ≤ day ∧ Active zone tracks day := by
    rw [← active_rows]
    exact (daily_spec ..).trans (by simp)
  have walked : (stats zone tracks now).currentStreakDays = walkBack days (days.length + 1)
      (if zone.localDate now ∈ days then zone.localDate now else zone.localDate now - 1) := rfl
  simp only [← recorded]
  constructor
  · intro active
    rw [walked, if_pos active]
    exact walkBack_isRun days _
  · intro idle
    rw [walked, if_neg idle]
    exact walkBack_isRun days _

/-- A run is the same from a day on, where it does not go on before that day. -/
theorem isRun_since_iff {active : Int → Prop} {last since : Int} {length : Nat}
    (after : since ≤ last + 1)
    (run : IsRun (fun day => since ≤ day ∧ active day) last length) :
    IsRun active last length ↔ ∃ day, since - 1 ≤ day ∧ day ≤ last ∧ ¬ active day := by
  constructor
  · intro whole
    refine ⟨last - length, ?_, by omega, whole.ends⟩
    cases length with
    | zero => simp only [Nat.cast_zero]; omega
    | succ length =>
        have first := (run.days length (Nat.lt_succ_self length)).1
        push_cast
        omega
  · rintro ⟨day, lower, upto, idle⟩
    refine ⟨fun i bound => (run.days i bound).2, fun onward => ?_⟩
    -- The run since the day stops at it, so it fills the days up to the last.
    have before : last - length < since := by
      by_contra inside
      exact run.ends ⟨not_lt.mp inside, onward⟩
    by_cases here : day = last - length
    · exact idle (here ▸ onward)
    · have within := (run.days (last - day).toNat (by omega)).2
      rw [Int.toNat_of_nonneg (by omega), sub_sub_cancel] at within
      exact idle within

/-- Weeks and streak are right exactly where the days without a pause do not reach back beyond the
eight weeks. -/
theorem stats_correct_iff (zone : Zone) (tracks : List Track) (now : Instant) :
    (CountsWeeks zone tracks (zone.localDate now) (stats zone tracks now).weekly ∧
      IsStreak (Active zone tracks) (zone.localDate now)
        (stats zone tracks now).currentStreakDays) ↔
    ∃ day, firstWeek (zone.localDate now) - 1 ≤ day ∧ day < zone.localDate now ∧
      ¬ Active zone tracks day := by
  rw [and_iff_right (stats_weekly zone tracks now)]
  obtain ⟨today, yesterday⟩ := stats_streak zone tracks now
  have recent : firstWeek (zone.localDate now) ≤ zone.localDate now := by
    simp only [firstWeek, weekOf]
    omega
  by_cases active : Active zone tracks (zone.localDate now)
  · have run := isRun_since_iff (by omega) (today ⟨recent, active⟩)
    simp only [IsStreak, active, true_implies, not_true_eq_false, false_implies, and_true, run]
    refine exists_congr fun day => and_congr_right fun _ => ?_
    constructor
    · rintro ⟨upto, idle⟩
      exact ⟨lt_of_le_of_ne upto fun same => idle (same ▸ active), idle⟩
    · exact And.imp_left le_of_lt
  · have run := isRun_since_iff (by omega) (yesterday fun recorded => active recorded.2)
    simp only [IsStreak, active, false_implies, not_false_eq_true, true_implies, true_and, run,
      Int.le_sub_one_iff]

/-- A Thursday in October 2025. -/
def thursday : Instant := 1760000000000000

/-- A track on each of the sixty days up to it. -/
def sixtyDays : List Track :=
  (List.range 60).map fun i : Nat => ⟨1000, some 600, thursday - 86400000000 * i⟩

theorem stats_streak_truncated :
    ¬ IsStreak (Active shanghai sixtyDays) (shanghai.localDate thursday)
      (stats shanghai sixtyDays thursday).currentStreakDays := by
  have counted : (stats shanghai sixtyDays thursday).currentStreakDays = 53 := by
    decide +kernel
  have active (i : Nat) (recent : i < 60) :
      Active shanghai sixtyDays (shanghai.localDate thursday - i) := by
    refine ⟨_, List.mem_map_of_mem (List.mem_range.mpr recent), ?_⟩
    simp only [shanghai, thursday]
    omega
  intro streak
  rw [counted] at streak
  exact (streak.1 (by simpa using active 0 (by decide))).ends (active 53 (by decide))

end MapGo.Server
