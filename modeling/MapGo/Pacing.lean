import Mathlib

/-! Admissions that are counted in fixed windows. A window begins with the first call after the one
before it has ended and lets a limited number of calls through, so a period as long as a window
meets at most two of them. A budget that is read before it is spent is overdrawn by no more than the
requests that read it together. -/
namespace Pacing
variable {K : Type*}

/-- A request that leaves a list of requests. -/
theorem countP_eraseIdx {p : K → Bool} {requests : List K} {place : Nat} {x : K}
    (found : requests[place]? = some x) :
    requests.countP p = (requests.eraseIdx place).countP p + if p x then 1 else 0 := by
  obtain ⟨inside, rfl⟩ := List.getElem?_eq_some_iff.mp found
  rw [← (List.getElem_cons_eraseIdx_perm inside).countP_eq p, List.countP_cons]

section
variable [LinearOrder K]

/-- The times in a period, its end not included. -/
def within (times : List K) (since upTo : K) : Nat :=
  times.countP fun time => since ≤ time ∧ time < upTo

variable {times : List K} {since middle upTo now : K}

theorem within_append : within (times ++ [now]) since upTo =
    within times since upTo + if since ≤ now ∧ now < upTo then 1 else 0 := by
  simp only [within, List.countP_append, List.countP_singleton, decide_eq_true_eq]

theorem within_mono {earlier later : K} (starts : earlier ≤ since) (ends : upTo ≤ later) :
    within times since upTo ≤ within times earlier later := by
  apply List.countP_mono_left
  intro time _ inside
  obtain ⟨after, before⟩ := of_decide_eq_true inside
  exact decide_eq_true ⟨starts.trans after, before.trans_le ends⟩

theorem within_split (times : List K) (since middle upTo : K) :
    within times since upTo ≤ within times since middle + within times middle upTo := by
  induction times with
  | nil => exact Nat.zero_le _
  | cons time rest ih =>
      simp only [within, List.countP_cons, decide_eq_true_eq] at ih ⊢
      have parts : (if since ≤ time ∧ time < upTo then 1 else 0) ≤
          (if since ≤ time ∧ time < middle then 1 else 0) +
            if middle ≤ time ∧ time < upTo then 1 else 0 := by
        by_cases early : time < middle
        · simp only [early, and_true, not_le.mpr early, false_and, if_false, Nat.add_zero]
          split <;> simp_all
        · simp only [early, and_false, not_lt.mp early, true_and, if_false, Nat.zero_add]
          split <;> simp_all
      omega

theorem within_eq_zero (outside : ∀ time ∈ times, time < since) : within times since upTo = 0 := by
  rw [within, List.countP_eq_zero]
  intro time member inside
  exact absurd (of_decide_eq_true inside).1 (not_le.mpr (outside time member))

end

variable [Field K] [LinearOrder K]

/-- The times so far, the end of the last window and the calls in it. -/
structure Paced (ttl : K) (limit : Nat) (times : List K) (expires : K) (calls : Nat) : Prop where
  before : ∀ time ∈ times, time < expires
  current : within times (expires - ttl) expires ≤ min calls limit
  previous : ∀ since, expires - 2 * ttl ≤ since → within times since (expires - ttl) ≤ limit
  spread : ∀ since, within times since (since + ttl) ≤ 2 * limit

namespace Paced
variable {ttl expires now : K} {limit calls : Nat} {times : List K}

theorem empty : Paced ttl limit [] expires calls where
  before := by simp
  current := Nat.zero_le _
  previous _ _ := Nat.zero_le _
  spread _ := Nat.zero_le _

/-- A call that is not let through. -/
theorem refuse (paced : Paced ttl limit times expires calls) :
    Paced ttl limit times expires (calls + 1) :=
  { paced with current := paced.current.trans (min_le_min_right limit (Nat.le_succ calls)) }

/-- Two windows bound the periods that reach into the second. -/
theorem spread_of_windows (current : within times (expires - ttl) expires ≤ limit)
    (previous : ∀ since, expires - 2 * ttl ≤ since → within times since (expires - ttl) ≤ limit)
    (before : ∀ time ∈ times, time < expires) {since : K} (late : expires - 2 * ttl ≤ since) :
    within times since (since + ttl) ≤ 2 * limit := by
  have second : within times (expires - ttl) (since + ttl) ≤ within times (expires - ttl) expires := by
    apply List.countP_mono_left
    intro time member inside
    exact decide_eq_true ⟨(of_decide_eq_true inside).1, before time member⟩
  have whole := within_split times since (expires - ttl) (since + ttl)
  have first := previous since late
  omega

variable [IsStrictOrderedRing K]

/-- A call in the open window. -/
theorem grant (paced : Paced ttl limit times expires calls) (opened : expires - ttl ≤ now)
    (unended : now < expires) (room : calls + 1 ≤ limit) :
    Paced ttl limit (times ++ [now]) expires (calls + 1) := by
  have before : ∀ time ∈ times ++ [now], time < expires := by
    intro time member
    rcases List.mem_append.mp member with earlier | last
    · exact paced.before time earlier
    · rwa [List.mem_singleton.mp last]
  have current : within (times ++ [now]) (expires - ttl) expires ≤ min (calls + 1) limit := by
    have used := paced.current
    rw [within_append, if_pos ⟨opened, unended⟩]
    omega
  have previous : ∀ since, expires - 2 * ttl ≤ since →
      within (times ++ [now]) since (expires - ttl) ≤ limit := by
    intro since late
    rw [within_append, if_neg fun inside => absurd inside.2 (not_lt.mpr opened)]
    exact paced.previous since late
  refine ⟨before, current, previous, fun since => ?_⟩
  by_cases late : expires - 2 * ttl ≤ since
  · exact spread_of_windows (current.trans (min_le_right _ _)) previous before late
  · rw [within_append, if_neg fun inside => by linarith [inside.2]]
    exact paced.spread since

/-- The first call after the end of the window begins the next, which lets it through or not. -/
theorem renew (paced : Paced ttl limit times expires calls) (positive : 0 < ttl)
    (ended : expires ≤ now) (admitted : Bool) (room : admitted = true → 1 ≤ limit) :
    Paced ttl limit (times ++ if admitted then [now] else []) (now + ttl) 1 := by
  have earlier : ∀ time ∈ times, time < now := fun time member =>
    (paced.before time member).trans_le ended
  have before : ∀ time ∈ times ++ if admitted then [now] else [], time < now + ttl := by
    intro time member
    rcases List.mem_append.mp member with old | new
    · exact (earlier time old).trans (lt_add_of_pos_right now positive)
    · cases admitted with
      | false => cases new
      | true =>
          rw [List.mem_singleton.mp new]
          exact lt_add_of_pos_right now positive
  have current : within (times ++ if admitted then [now] else []) (now + ttl - ttl) (now + ttl) ≤
      min 1 limit := by
    rw [add_sub_cancel_right]
    have fresh : within times now (now + ttl) = 0 := within_eq_zero earlier
    cases admitted with
    | false => simp [fresh]
    | true =>
        rw [if_pos rfl, within_append, fresh]
        have positive := room rfl
        split <;> omega
  -- what the previous period may hold was all let through by the window that has ended
  have previous : ∀ since, now + ttl - 2 * ttl ≤ since →
      within (times ++ if admitted then [now] else []) since (now + ttl - ttl) ≤ limit := by
    intro since late
    rw [add_sub_cancel_right]
    have old : within times since now ≤ limit := by
      refine le_trans ?_ (paced.current.trans (min_le_right _ _))
      apply List.countP_mono_left
      intro time member inside
      have after := (of_decide_eq_true inside).1
      exact decide_eq_true ⟨by linarith, paced.before time member⟩
    cases admitted with
    | false => simpa using old
    | true =>
        rw [if_pos rfl, within_append, if_neg fun inside => lt_irrefl _ inside.2]
        exact old
  refine ⟨before, current, previous, fun since => ?_⟩
  by_cases late : now + ttl - 2 * ttl ≤ since
  · exact spread_of_windows (current.trans (min_le_right _ _)) previous before late
  · cases admitted with
    | false => simpa using paced.spread since
    | true =>
        rw [if_pos rfl, within_append, if_neg fun inside => by linarith [inside.2]]
        exact paced.spread since

end Paced

section
variable {quota most each spent amount : Int} {load : Nat}

/-- The budget, or what its requests in flight may still spend, covers what has been spent. -/
def Covered (quota most each spent : Int) (load : Nat) : Prop :=
  spent ≤ quota ∨ spent + load * each ≤ quota + most * each

namespace Covered

theorem leave (covered : Covered quota most each spent (load + 1)) (positive : 0 ≤ each) :
    Covered quota most each spent load := by
  rcases covered with within | beside
  · exact .inl within
  · refine .inr (le_trans ?_ beside)
    rw [Nat.cast_succ, add_mul, one_mul]
    omega

/-- A request spends no more than it may, and leaves. -/
theorem settle (covered : Covered quota most each spent (load + 1)) (few : (load : Int) + 1 ≤ most)
    (small : amount ≤ each) (positive : 0 ≤ each) :
    Covered quota most each (spent + amount) load := by
  right
  have shares : (load + 1) * each ≤ most * each := mul_le_mul_of_nonneg_right few positive
  rw [add_mul, one_mul] at shares
  rcases covered with within | beside
  · linarith
  · rw [Nat.cast_succ, add_mul, one_mul] at beside
    linarith

theorem bound (covered : Covered quota most each spent load) (positive : 0 ≤ each)
    (some : 0 ≤ most) : spent ≤ quota + most * each := by
  have own : 0 ≤ load * each := mul_nonneg (Int.natCast_nonneg load) positive
  have all : 0 ≤ most * each := mul_nonneg some positive
  rcases covered with within | beside
  · linarith
  · linarith

end Covered
end
end Pacing
