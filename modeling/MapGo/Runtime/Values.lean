import Mathlib

/-! The JSON values of the in-memory runtime store: expiring entries in insertion order, a limit on
their number and bytes, and a write that is conditioned on a revision. -/
namespace MapGo.Runtime

structure StoredValue (V : Type) where
  key : String
  value : V
  expires : Nat
  size : Nat

structure ValueStore (V : Type) where
  values : List (StoredValue V) := []
  maxValues : Nat := 10000
  maxValueBytes : Nat := 67108864
  distinct : (values.map StoredValue.key).Nodup := by exact List.nodup_nil

namespace ValueStore
variable {V : Type}

/-- Keep some of the entries. -/
def keep (s : ValueStore V) (values : List (StoredValue V)) (kept : values.Sublist s.values) :
    ValueStore V :=
  { s with values := values, distinct := s.distinct.sublist (kept.map _) }

/-- `_purge_expired_values` -/
def purgeExpiredValues (s : ValueStore V) (now : Nat) : ValueStore V :=
  s.keep (s.values.filter fun item => now < item.expires) List.filter_sublist

/-- `_remove_value` -/
def removeValue (s : ValueStore V) (key : String) : ValueStore V :=
  s.keep (s.values.filter fun item => item.key ≠ key) List.filter_sublist

/-- The oldest entries go until a value of this size fits. -/
def evicted (maxValues maxValueBytes size : Nat) : List (StoredValue V) → List (StoredValue V)
  | [] => []
  | item :: rest =>
      if maxValues ≤ (item :: rest).length ∨
          maxValueBytes < ((item :: rest).map StoredValue.size).sum + size then
        evicted maxValues maxValueBytes size rest
      else item :: rest

theorem evicted_sublist (maxValues maxValueBytes size : Nat) (values : List (StoredValue V)) :
    (evicted maxValues maxValueBytes size values).Sublist values := by
  induction values with
  | nil => exact .refl _
  | cons item rest ih =>
      unfold evicted
      split
      · exact ih.cons item
      · exact .refl _

def evict (s : ValueStore V) (size : Nat) : ValueStore V :=
  s.keep (evicted s.maxValues s.maxValueBytes size s.values) (evicted_sublist ..)

def find (s : ValueStore V) (key : String) : Option (StoredValue V) :=
  s.values.find? fun item => item.key = key

theorem find_iff {s : ValueStore V} {key : String} {item : StoredValue V} :
    s.find key = some item ↔ item ∈ s.values ∧ item.key = key := by
  constructor
  · intro found
    exact ⟨List.mem_of_find?_eq_some found, by simpa using List.find?_some found⟩
  · rintro ⟨member, rfl⟩
    obtain ⟨first, found⟩ : ∃ first, s.find item.key = some first :=
      Option.isSome_iff_exists.mp (List.find?_isSome.mpr ⟨item, member, by simp⟩)
    have same : first.key = item.key := by simpa using List.find?_some found
    rw [found, List.inj_on_of_nodup_map s.distinct (List.mem_of_find?_eq_some found) member same]

theorem find_none_iff {s : ValueStore V} {key : String} :
    s.find key = none ↔ ∀ item ∈ s.values, item.key ≠ key := by
  simp [find]

/-- `get_json` removes an expired value. -/
def getJson (s : ValueStore V) (key : String) (now : Nat) : Option V × ValueStore V :=
  match s.find key with
  | none => (none, s.removeValue key)
  | some item =>
      if item.expires ≤ now then (none, s.removeValue key) else (some item.value, s)

/-- Write a value under a key that is free. -/
def insert (s : ValueStore V) (item : StoredValue V) (free : s.find item.key = none) :
    ValueStore V :=
  { s with
    values := s.values ++ [item]
    distinct := by
      rw [List.map_append]
      refine List.nodup_append.mpr ⟨s.distinct, List.nodup_singleton _, ?_⟩
      intro key before new last same
      obtain ⟨other, member, rfl⟩ := List.mem_map.mp before
      exact find_none_iff.mp free other member (same.trans (List.mem_singleton.mp last)) }

theorem find_evict_removed (s : ValueStore V) (key : String) (size : Nat) :
    ((s.removeValue key).evict size).find key = none := by
  refine find_none_iff.mpr fun item member => ?_
  have kept := (evicted_sublist ..).subset member
  exact of_decide_eq_true (List.mem_filter.mp kept).2

/-- `compare_set_json`; the revision of a value is its `revision` member, and -1 without a value. -/
def compareSetJson (s : ValueStore V) (revision : V → Int) (key : String) (expectedRevision : Int)
    (value : V) (size now ttlSeconds : Nat) : Bool × ValueStore V :=
  let s := s.purgeExpiredValues now
  let current := (s.find key).elim (-1) fun item => revision item.value
  if current ≠ expectedRevision then (false, s)
  else if s.maxValueBytes < size then (false, s)
  else (true, ((s.removeValue key).evict size).insert ⟨key, value, now + ttlSeconds, size⟩
    (s.find_evict_removed key size))

/-- The value under a key. -/
def value (s : ValueStore V) (key : String) : Option V := (s.find key).map StoredValue.value

/-- The entry of a key has not expired. -/
def fresh (s : ValueStore V) (key : String) (now : Nat) : Bool :=
  (s.find key).all fun item => now < item.expires

variable {s : ValueStore V} {key other : String} {revision : V → Int} {expected : Int} {new : V}
  {size now ttl : Nat}

theorem find_purge (live : s.fresh key now = true) :
    (s.purgeExpiredValues now).find key = s.find key := by
  cases found : s.find key with
  | none =>
      refine find_none_iff.mpr fun item member => ?_
      exact find_none_iff.mp found item (List.mem_filter.mp member).1
  | some item =>
      obtain ⟨member, matched⟩ := find_iff.mp found
      have unexpired : now < item.expires := by simpa [fresh, found] using live
      exact find_iff.mpr ⟨List.mem_filter.mpr ⟨member, decide_eq_true unexpired⟩, matched⟩

theorem find_remove (apart : other ≠ key) : (s.removeValue key).find other = s.find other := by
  cases found : s.find other with
  | none =>
      refine find_none_iff.mpr fun item member => ?_
      exact find_none_iff.mp found item (List.mem_filter.mp member).1
  | some item =>
      obtain ⟨member, matched⟩ := find_iff.mp found
      exact find_iff.mpr ⟨List.mem_filter.mpr ⟨member, decide_eq_true (matched ▸ apart)⟩, matched⟩

theorem getJson_value (live : s.fresh key now = true) : (s.getJson key now).1 = s.value key := by
  unfold getJson value
  cases found : s.find key with
  | none => rfl
  | some item =>
      have unexpired : now < item.expires := by simpa [fresh, found] using live
      simp [not_le.mpr unexpired]

theorem find_getJson (live : s.fresh other now = true) :
    (s.getJson key now).2.find other = s.find other := by
  by_cases apart : other = key
  · subst apart
    unfold getJson
    cases found : s.find other with
    | none =>
        refine find_none_iff.mpr fun item member => ?_
        exact find_none_iff.mp found item (List.mem_filter.mp member).1
    | some item =>
        have unexpired : now < item.expires := by simpa [fresh, found] using live
        simp [not_le.mpr unexpired, found]
  · unfold getJson
    split
    · exact find_remove apart
    · split
      · exact find_remove apart
      · rfl

/-- A write that is refused changes no live entry. -/
theorem find_compareSetJson_refused (live : s.fresh other now = true)
    (refused : (s.compareSetJson revision key expected new size now ttl).1 = false) :
    (s.compareSetJson revision key expected new size now ttl).2.find other = s.find other := by
  unfold compareSetJson at refused ⊢
  dsimp only at refused ⊢
  split
  · exact find_purge live
  · split
    · exact find_purge live
    · rename_i matched small
      simp [matched, small] at refused

/-- A write that is stored found its revision. -/
theorem compareSetJson_stored (live : s.fresh key now = true)
    (stored : (s.compareSetJson revision key expected new size now ttl).1 = true) :
    (s.value key).elim (-1) revision = expected ∧
      (s.compareSetJson revision key expected new size now ttl).2.find key =
        some ⟨key, new, now + ttl, size⟩ := by
  unfold compareSetJson at stored ⊢
  dsimp only at stored ⊢
  rw [find_purge live] at stored ⊢
  split at stored
  · contradiction
  · rename_i matched
    split at stored
    · contradiction
    · rename_i small
      rw [if_neg matched, if_neg small]
      refine ⟨?_, ?_⟩
      · rw [← not_not.mp matched, value]
        cases s.find key <;> rfl
      · refine find_iff.mpr ⟨?_, rfl⟩
        exact List.mem_append_right _ (List.mem_singleton_self _)

theorem find_of_subset {t : ValueStore V} (kept : t.values ⊆ s.values) {item : StoredValue V}
    (found : t.find key = some item) : s.find key = some item := by
  obtain ⟨member, matched⟩ := find_iff.mp found
  exact find_iff.mpr ⟨kept member, matched⟩

/-- A read makes no entry. -/
theorem find_of_getJson {item : StoredValue V}
    (found : (s.getJson key now).2.find other = some item) : s.find other = some item := by
  unfold getJson at found
  split at found
  · exact find_of_subset (List.filter_subset_self _) found
  · split at found
    · exact find_of_subset (List.filter_subset_self _) found
    · exact found

/-- Every entry after a write was there before, or is the new one. -/
theorem find_of_compareSetJson {item : StoredValue V}
    (found : (s.compareSetJson revision key expected new size now ttl).2.find other = some item) :
    s.find other = some item ∨ item = ⟨key, new, now + ttl, size⟩ ∧ other = key := by
  unfold compareSetJson at found
  dsimp only at found
  split at found
  · exact .inl (find_of_subset (List.filter_subset_self _) found)
  · split at found
    · exact .inl (find_of_subset (List.filter_subset_self _) found)
    · obtain ⟨member, matched⟩ := find_iff.mp found
      rcases List.mem_append.mp member with before | last
      · refine .inl (find_iff.mpr ⟨?_, matched⟩)
        have removed := (evicted_sublist ..).subset before
        exact (List.mem_filter.mp (List.mem_filter.mp removed).1).1
      · obtain rfl := List.mem_singleton.mp last
        exact .inr ⟨rfl, matched.symm⟩

theorem find_purge_eq : (s.purgeExpiredValues now).find key =
    (s.find key).filter fun item => now < item.expires := by
  cases found : (s.purgeExpiredValues now).find key with
  | some item =>
      have unexpired := (List.mem_filter.mp (find_iff.mp found).1).2
      rw [find_of_subset (List.filter_subset_self _) found]
      simp [Option.filter, of_decide_eq_true unexpired]
  | none =>
      symm
      rw [Option.filter_eq_none_iff]
      intro item before unexpired
      obtain ⟨member, matched⟩ := find_iff.mp before
      exact find_none_iff.mp found item (List.mem_filter.mpr ⟨member, unexpired⟩) matched

theorem getJson_eq : (s.getJson key now).1 =
    ((s.purgeExpiredValues now).find key).map StoredValue.value := by
  rw [find_purge_eq]
  unfold getJson
  cases found : s.find key with
  | none => rfl
  | some item =>
      by_cases expired : item.expires ≤ now
      · simp [Option.filter, expired]
      · simp [Option.filter, expired, not_le.mp expired]

/-- A write is stored exactly when it finds its revision and fits. -/
theorem compareSetJson_iff : (s.compareSetJson revision key expected new size now ttl).1 = true ↔
    (s.getJson key now).1.elim (-1) revision = expected ∧ size ≤ s.maxValueBytes := by
  have current : (s.getJson key now).1.elim (-1) revision =
      ((s.purgeExpiredValues now).find key).elim (-1) fun item => revision item.value := by
    rw [getJson_eq]
    cases (s.purgeExpiredValues now).find key <;> rfl
  rw [current]
  unfold compareSetJson
  dsimp only
  split
  · simp_all
  · split
    · rename_i matched large
      have same : (s.purgeExpiredValues now).maxValueBytes = s.maxValueBytes := rfl
      rw [same] at large
      simp [not_le.mpr large]
    · rename_i matched fits
      exact iff_of_true rfl ⟨not_not.mp matched, not_lt.mp fits⟩

/-- A refused write only removes what has expired. -/
theorem getJson_compareSetJson_refused
    (refused : (s.compareSetJson revision key expected new size now ttl).1 = false) :
    ((s.compareSetJson revision key expected new size now ttl).2.getJson other now).1 =
      (s.getJson other now).1 := by
  have purged : (s.compareSetJson revision key expected new size now ttl).2 =
      s.purgeExpiredValues now := by
    unfold compareSetJson at refused ⊢
    dsimp only at refused ⊢
    split
    · rfl
    · split
      · rfl
      · rename_i matched small
        simp [matched, small] at refused
  rw [purged, getJson_eq, getJson_eq, find_purge_eq, find_purge_eq, Option.filter_filter]
  simp

theorem getJson_live {value : V} (live : (s.getJson key now).1 = some value) :
    (s.getJson key now).2 = s := by
  unfold getJson at live ⊢
  split at live
  · contradiction
  · split at live
    · contradiction
    · rename_i unexpired
      rw [if_neg unexpired]

theorem getJson_gone {later : Nat} (gone : (s.getJson key now).1 = none) :
    ((s.getJson key now).2.getJson key later).1 = none := by
  have removed : (s.getJson key now).2.find key = none := by
    unfold getJson at gone ⊢
    split at gone
    · exact find_none_iff.mpr fun item member => of_decide_eq_true (List.mem_filter.mp member).2
    · split at gone
      · rename_i expired
        rw [if_pos expired]
        exact find_none_iff.mpr fun item member => of_decide_eq_true (List.mem_filter.mp member).2
      · contradiction
  rw [getJson, removed]

theorem getJson_maxValueBytes : (s.getJson key now).2.maxValueBytes = s.maxValueBytes := by
  unfold getJson
  split
  · rfl
  · split <;> rfl

/-- A write leaves the entries of other keys that it does not evict. -/
theorem find_compareSetJson_other (apart : other ≠ key) (live : s.fresh other now = true)
    (kept : (s.find other).isSome = true →
      ((s.compareSetJson revision key expected new size now ttl).2.find other).isSome = true) :
    (s.compareSetJson revision key expected new size now ttl).2.find other = s.find other := by
  cases outcome : (s.compareSetJson revision key expected new size now ttl).1 with
  | false => exact find_compareSetJson_refused live outcome
  | true =>
      have inside {item : StoredValue V}
          (found : (s.compareSetJson revision key expected new size now ttl).2.find other =
            some item) : s.find other = some item := by
        obtain ⟨member, matched⟩ := find_iff.mp found
        unfold compareSetJson at outcome member
        dsimp only at outcome member
        split at outcome
        · contradiction
        · rename_i hit
          split at outcome
          · contradiction
          · rename_i small
            rw [if_neg hit, if_neg small] at member
            rcases List.mem_append.mp member with before | last
            · have removed := (evicted_sublist ..).subset before
              have purged := (List.mem_filter.mp removed).1
              exact find_iff.mpr ⟨(List.mem_filter.mp purged).1, matched⟩
            · rw [List.mem_singleton.mp last] at matched
              exact absurd matched.symm apart
      cases found : (s.compareSetJson revision key expected new size now ttl).2.find other with
      | some item => exact (inside found).symm
      | none =>
          rw [found] at kept
          cases before : s.find other with
          | none => rfl
          | some item =>
              rw [before] at kept
              exact absurd (kept rfl) Bool.false_ne_true

theorem getJson_filter : (s.getJson key now).1 =
    ((s.find key).filter fun item => now < item.expires).map StoredValue.value := by
  rw [getJson_eq, find_purge_eq]

/-- Without a write of its key, a value stays or is gone. -/
theorem getJson_of_find {t : ValueStore V} {later : Nat} (ordered : now ≤ later)
    (kept : ∀ item, t.find key = some item → s.find key = some item) :
    (t.getJson key later).1 = (s.getJson key now).1 ∨ (t.getJson key later).1 = none := by
  rw [getJson_filter, getJson_filter]
  cases found : t.find key with
  | none => exact .inr rfl
  | some item =>
      rw [kept item found]
      by_cases live : later < item.expires
      · have earlier : now < item.expires := lt_of_le_of_lt ordered live
        exact .inl (by simp [Option.filter, live, earlier])
      · exact .inr (by simp [Option.filter, live])

/-- A stored value is found until it expires. -/
theorem getJson_compareSetJson (positive : 0 < ttl)
    (stored : (s.compareSetJson revision key expected new size now ttl).1 = true) :
    ((s.compareSetJson revision key expected new size now ttl).2.getJson key now).1 = some new := by
  have found : (s.compareSetJson revision key expected new size now ttl).2.find key =
      some ⟨key, new, now + ttl, size⟩ := by
    unfold compareSetJson at stored ⊢
    dsimp only at stored ⊢
    split at stored
    · contradiction
    · rename_i matched
      split at stored
      · contradiction
      · rename_i small
        rw [if_neg matched, if_neg small]
        exact find_iff.mpr ⟨List.mem_append_right _ (List.mem_singleton_self _), rfl⟩
  rw [getJson_filter, found]
  simp [Option.filter, positive]

end ValueStore
end MapGo.Runtime
