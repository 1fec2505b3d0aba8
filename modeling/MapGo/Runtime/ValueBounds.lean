import MapGo.Assoc
import MapGo.Transition

/-! The limits on the JSON values of the in-memory runtime store. Values, their encoded sizes and the
total are kept apart, and every operation has to change them together. -/
namespace MapGo.Runtime

open Assoc Transition

/-- What the store uses of the JSON text of a value. -/
structure ValueEncoding (V : Type) where
  /-- The bytes of `json.dumps(value, ensure_ascii=False)`; nothing if it raises. -/
  encodedSize : V → Option Nat
  positive : ∀ value size, encodedSize value = some size → 0 < size
  /-- Whether the value is a mapping with this revision; nothing if `int` raises. -/
  hasRevision : V → Int → Option Bool

/-- The limits that `__init__` accepts. -/
structure StoreLimits where
  maxValues : Nat := 10000
  maxValueBytes : Nat := 67108864
  positive : 0 < maxValues ∧ 0 < maxValueBytes := by decide

/-- `_values` with the ends of their times, `_value_sizes` and `_value_bytes`. -/
structure ValueTables (V : Type) where
  values : List (String × (V × ℚ)) := []
  sizes : List (String × Nat) := []
  bytes : Int := 0

namespace ValueTables
variable {V : Type} (encoding : ValueEncoding V) (limits : StoreLimits) (s : ValueTables V)

/-- `_remove_value` -/
def removeValue (key : String) : ValueTables V where
  values := erase key s.values
  sizes := erase key s.sizes
  bytes := s.bytes - (s.sizes.lookup key).getD 0

/-- `_purge_expired_values` -/
def purgeExpiredValues (now : ℚ) : ValueTables V :=
  s.values.foldl (fun s entry => if entry.2.2 ≤ now then s.removeValue entry.1 else s) s

/-- A value of this size has no room yet. -/
def lacksRoom (size : Nat) : Bool :=
  decide (limits.maxValues ≤ s.values.length ∨ (limits.maxValueBytes : Int) < s.bytes + size)

/-- The loop that removes the oldest values; it ends with the values. -/
def evict (size : Nat) : Nat → ValueTables V → ValueTables V
  | 0, s => s
  | fuel + 1, s =>
      match s.values with
      | [] => s
      | oldest :: _ =>
          if s.lacksRoom limits size then evict size fuel (s.removeValue oldest.1) else s

/-- The end of `set_json` and `compare_set_json`. -/
def store (key : String) (value : V) (size : Nat) (expires : ℚ) : ValueTables V :=
  let s := s.removeValue key
  let s := evict limits size s.values.length s
  { values := assign key (value, expires) s.values
    sizes := assign key size s.sizes
    bytes := s.bytes + size }

/-- `set_json` reads the clock once more for the end of the time. -/
def setJson (key : String) (value : V) (ttlSeconds : Int) (now finished : ℚ) : ValueTables V :=
  let s := s.purgeExpiredValues now
  match encoding.encodedSize value with
  | none => s
  | some size =>
      if limits.maxValueBytes < size then s.removeValue key
      else s.store limits key value size (finished + ttlSeconds)

/-- `compare_set_json`; without an answer it raises. -/
def compareSetJson (key : String) (expectedRevision : Int) (value : V) (ttlSeconds : Int)
    (now : ℚ) : Option Bool × ValueTables V :=
  let s := s.purgeExpiredValues now
  let matched := match s.values.lookup key with
    | none => some (decide (expectedRevision = -1))
    | some current => encoding.hasRevision current.1 expectedRevision
  match matched with
  | none => (none, s)
  | some false => (some false, s)
  | some true =>
      match encoding.encodedSize value with
      | none => (none, s)
      | some size =>
          if limits.maxValueBytes < size then (some false, s)
          else (some true, s.store limits key value size (now + ttlSeconds))

def getJson (key : String) (now : ℚ) : Option V × ValueTables V :=
  match s.values.lookup key with
  | none => (none, s.removeValue key)
  | some item => if item.2 ≤ now then (none, s.removeValue key) else (some item.1, s)

def deleteJson (key : String) : Bool × ValueTables V :=
  (decide (key ∈ s.values.map Prod.fst), s.removeValue key)

/-- The key of a channel's latest value. -/
def latest (channel : String) : String := "pub:" ++ channel ++ ":latest"

/-- `publish`, as far as it stores. -/
def publish (channel : String) (value : V) (now : ℚ) : ValueTables V :=
  { s with values := assign (latest channel) (value, now + 86400) s.values }

end ValueTables

inductive ValueCall (V : Type) where
  | setJson (key : String) (value : V) (ttlSeconds : Int) (now finished : ℚ)
  | compareSetJson (key : String) (expectedRevision : Int) (value : V) (ttlSeconds : Int) (now : ℚ)
  | getJson (key : String) (now : ℚ)
  | deleteJson (key : String)
  | publish (channel : String) (value : V) (now : ℚ)

variable {V : Type}

/-- The calls of any clients, one after the other under the lock of the store. -/
def valueMachine (encoding : ValueEncoding V) (limits : StoreLimits) :
    Machine (ValueTables V) (ValueCall V) where
  initial s := s = {}
  step s
    | .setJson key value ttlSeconds now finished =>
        some (s.setJson encoding limits key value ttlSeconds now finished)
    | .compareSetJson key expectedRevision value ttlSeconds now =>
        some (s.compareSetJson encoding limits key expectedRevision value ttlSeconds now).2
    | .getJson key now => some (s.getJson key now).2
    | .deleteJson key => some (s.deleteJson key).2
    | .publish channel value now => some (s.publish channel value now)

namespace ValueTables
variable {encoding : ValueEncoding V} {limits : StoreLimits} {s t : ValueTables V}

/-- The number of values and their encoded bytes are what the store counts, and in its limits. -/
structure Bounded (encoding : ValueEncoding V) (limits : StoreLimits) (s : ValueTables V) : Prop where
  count : s.values.length ≤ limits.maxValues
  measured : ∃ sizes : List Nat,
    s.values.map (fun entry => encoding.encodedSize entry.2.1) = sizes.map some ∧
      s.bytes = sizes.sum
  limit : s.bytes ≤ limits.maxValueBytes

/-- A value is published only in the place of one of its encoded size. -/
def replaces (encoding : ValueEncoding V) (s : ValueTables V) : ValueCall V → Prop
  | .publish channel value _ => (s.values.lookup (latest channel)).map
      (fun stored => encoding.encodedSize stored.1) = some (encoding.encodedSize value)
  | _ => True

/-- The three tables agree. -/
structure Tracked (encoding : ValueEncoding V) (limits : StoreLimits) (s : ValueTables V) : Prop where
  distinct : Distinct s.values
  sizes : s.values.map (fun entry => (entry.1, encoding.encodedSize entry.2.1)) =
    s.sizes.map fun entry => (entry.1, some entry.2)
  bytes : s.bytes = (s.sizes.map Prod.snd).sum
  count : s.values.length ≤ limits.maxValues
  limit : s.bytes ≤ limits.maxValueBytes

namespace Tracked

theorem initial : Tracked encoding limits ({} : ValueTables V) :=
  ⟨.nil, rfl, rfl, Nat.zero_le _, Int.natCast_nonneg _⟩

theorem keys (tracked : s.Tracked encoding limits) :
    s.sizes.map Prod.fst = s.values.map Prod.fst := by
  have same := congrArg (List.map Prod.fst) tracked.sizes
  rw [List.map_map, List.map_map] at same
  exact same.symm

theorem distinct_sizes (tracked : s.Tracked encoding limits) : Distinct s.sizes := by
  rw [Distinct, tracked.keys]
  exact tracked.distinct

theorem bounded (tracked : s.Tracked encoding limits) : s.Bounded encoding limits := by
  refine ⟨tracked.count, ⟨s.sizes.map Prod.snd, ?_, tracked.bytes⟩, tracked.limit⟩
  have same := congrArg (List.map Prod.snd) tracked.sizes
  rw [List.map_map, List.map_map] at same
  rw [List.map_map]
  exact same

theorem removeValue (tracked : s.Tracked encoding limits) (key : String) :
    (s.removeValue key).Tracked encoding limits := by
  have sum : ((erase key s.sizes).map Prod.snd).sum + (s.sizes.lookup key).getD 0 =
      (s.sizes.map Prod.snd).sum := sum_erase tracked.distinct_sizes
  have bytes := tracked.bytes
  have limit := tracked.limit
  refine ⟨tracked.distinct.erase, ?_, ?_, ?_, ?_⟩
  · have sizes := congrArg (erase key) tracked.sizes
    rw [ValueTables.removeValue]
    dsimp only
    rw [map_erase (fun item : V × ℚ => encoding.encodedSize item.1), sizes, map_erase some]
  · rw [ValueTables.removeValue]
    dsimp only
    omega
  · exact (List.length_filter_le ..).trans tracked.count
  · rw [ValueTables.removeValue]
    dsimp only
    omega

theorem purge (tracked : s.Tracked encoding limits) (now : ℚ) :
    (s.purgeExpiredValues now).Tracked encoding limits := by
  unfold purgeExpiredValues
  generalize s.values = entries
  induction entries generalizing s with
  | nil => exact tracked
  | cons entry rest ih =>
      rw [List.foldl_cons]
      split
      · exact ih (tracked.removeValue entry.1)
      · exact ih tracked

/-- Evicting removes keys, and ends without values or with room. -/
theorem evict (tracked : s.Tracked encoding limits) {key : String}
    (absent : key ∉ s.values.map Prod.fst) (size fuel : Nat) (enough : s.values.length ≤ fuel) :
    let t := evict limits size fuel s
    t.Tracked encoding limits ∧ key ∉ t.values.map Prod.fst ∧
      (t.values = [] ∨ t.lacksRoom limits size = false) := by
  induction fuel generalizing s with
  | zero => exact ⟨tracked, absent, .inl (List.length_eq_zero_iff.mp (Nat.le_zero.mp enough))⟩
  | succ fuel ih =>
      unfold ValueTables.evict
      split
      · rename_i empty
        exact ⟨tracked, absent, .inl empty⟩
      · rename_i oldest rest shape
        split
        · refine ih (tracked.removeValue oldest.1) (fun member => absent ?_) ?_
          · exact (List.filter_sublist.map Prod.fst).subset member
          · have shorter : (erase oldest.1 s.values).length < s.values.length := by
              refine List.length_filter_lt_length_iff_exists.mpr ⟨oldest, ?_, by simp⟩
              rw [shape]
              exact List.mem_cons_self
            change (erase oldest.1 s.values).length ≤ fuel
            omega
        · rename_i room
          exact ⟨tracked, absent, .inr (Bool.not_eq_true _ ▸ room)⟩

/-- A value that fits at all is stored within the limits. -/
theorem store (tracked : s.Tracked encoding limits) (key : String) {value : V} {size : Nat}
    (encoded : encoding.encodedSize value = some size) (fits : size ≤ limits.maxValueBytes)
    (expires : ℚ) : (s.store limits key value size expires).Tracked encoding limits := by
  unfold ValueTables.store
  dsimp only
  have removed : key ∉ (s.removeValue key).values.map Prod.fst := not_mem_erase
  obtain ⟨evicted, absent, room⟩ :=
    (tracked.removeValue key).evict removed size _ le_rfl
  generalize ValueTables.evict limits size (s.removeValue key).values.length
    (s.removeValue key) = t at evicted absent room
  have keyless : key ∉ t.sizes.map Prod.fst := evicted.keys ▸ absent
  have bytes := evicted.bytes
  rw [assign_of_absent absent, assign_of_absent keyless]
  have enough : t.values.length + 1 ≤ limits.maxValues ∧
      t.bytes + size ≤ limits.maxValueBytes := by
    rcases room with empty | room
    · have none : t.sizes = [] := by
        have keys := evicted.keys
        rw [empty] at keys
        exact List.map_eq_nil_iff.mp keys
      rw [none] at bytes
      rw [empty, bytes]
      have positive := limits.positive
      simp only [List.length_nil, List.map_nil, List.sum_nil]
      omega
    · have room := of_decide_eq_false room
      omega
  refine ⟨?_, ?_, ?_, ?_, enough.2⟩
  · rw [← assign_of_absent absent]
    exact evicted.distinct.assign
  · rw [List.map_append, List.map_append, evicted.sizes]
    simp [encoded]
  · rw [List.map_append, List.sum_append, bytes]
    simp
  · rw [List.length_append]
    exact enough.1

/-- Every operation but `publish` keeps the tables together. -/
theorem step_stored {a : ValueCall V} (tracked : s.Tracked encoding limits)
    (stepped : (valueMachine encoding limits).step s a = some t)
    (other : ∀ channel value now, a ≠ .publish channel value now) :
    t.Tracked encoding limits := by
  cases a with
  | setJson key value ttlSeconds now finished =>
      cases stepped
      unfold setJson
      dsimp only
      split
      · exact tracked.purge now
      · rename_i size encoded
        split
        · exact (tracked.purge now).removeValue key
        · rename_i fits
          exact (tracked.purge now).store key encoded (not_lt.mp fits) _
  | compareSetJson key expectedRevision value ttlSeconds now =>
      cases stepped
      unfold compareSetJson
      dsimp only
      split
      · exact tracked.purge now
      · exact tracked.purge now
      · split
        · exact tracked.purge now
        · rename_i size encoded
          split
          · exact tracked.purge now
          · rename_i fits
            exact (tracked.purge now).store key encoded (not_lt.mp fits) _
  | getJson key now =>
      cases stepped
      unfold getJson
      split
      · exact tracked.removeValue key
      · split
        · exact tracked.removeValue key
        · exact tracked
  | deleteJson key =>
      cases stepped
      exact tracked.removeValue key
  | publish channel value now => exact absurd rfl (other channel value now)

/-- The size of a stored value is the recorded one. -/
theorem lookup_sizes (tracked : s.Tracked encoding limits) (key : String) :
    (s.values.lookup key).map (fun stored => encoding.encodedSize stored.1) =
      (s.sizes.lookup key).map some := by
  have same := congrArg (List.lookup key) tracked.sizes
  rwa [lookup_map (fun item : V × ℚ => encoding.encodedSize item.1), lookup_map] at same

/-- The sizes after a publication, in the order of the values. -/
theorem keyed_publish (tracked : s.Tracked encoding limits) (key : String) (value : V × ℚ) :
    (assign key value s.values).map (fun entry => (entry.1, encoding.encodedSize entry.2.1)) =
      assign key (encoding.encodedSize value.1)
        (s.sizes.map fun entry => (entry.1, some entry.2)) := by
  rw [map_assign (fun item : V × ℚ => encoding.encodedSize item.1), tracked.sizes]

theorem publish (tracked : s.Tracked encoding limits) {channel : String} {value : V} {now : ℚ}
    (replaced : s.replaces encoding (.publish channel value now)) :
    (s.publish channel value now).Tracked encoding limits := by
  have keyed := tracked.keyed_publish (latest channel) (value, now + 86400)
  unfold replaces at replaced
  dsimp only at replaced
  rw [tracked.lookup_sizes (latest channel)] at replaced
  obtain ⟨size, found, encoded⟩ := Option.map_eq_some_iff.mp replaced
  rw [← encoded, ← map_assign, assign_of_lookup found] at keyed
  have present : latest channel ∈ s.values.map Prod.fst := by
    by_contra absent
    rw [← tracked.keys, ← lookup_eq_none, found] at absent
    contradiction
  refine ⟨tracked.distinct.assign, keyed, tracked.bytes, ?_, tracked.limit⟩
  change (assign (latest channel) (value, now + 86400) s.values).length ≤ _
  rw [length_assign, if_pos present]
  exact tracked.count

/-- A publication keeps the limits and the count exactly if it replaces a value of its size. -/
theorem publish_iff (tracked : s.Tracked encoding limits) (channel : String) (value : V)
    (now : ℚ) : (s.publish channel value now).Bounded encoding limits ↔
      s.replaces encoding (.publish channel value now) := by
  have recorded := tracked.lookup_sizes (latest channel)
  have keyed := tracked.keyed_publish (latest channel) (value, now + 86400)
  constructor
  · rintro ⟨-, ⟨sizes, measured, total⟩, -⟩
    have all := congrArg (List.map Prod.snd) keyed
    rw [List.map_map] at all
    have shape : (assign (latest channel) (encoding.encodedSize value)
        (s.sizes.map fun entry => (entry.1, some entry.2))).map Prod.snd = sizes.map some :=
      all.symm.trans measured
    cases encoded : encoding.encodedSize value with
    | none =>
        rw [encoded] at shape
        have stored : none ∈ (assign (latest channel) none
            (s.sizes.map fun entry => (entry.1, some entry.2))).map Prod.snd :=
          List.mem_map.mpr ⟨_, mem_of_lookup (lookup_assign.trans (if_pos rfl)), rfl⟩
        rw [shape] at stored
        simp at stored
    | some size =>
        rw [encoded, ← map_assign, List.map_map] at shape
        have same : (assign (latest channel) size s.sizes).map Prod.snd = sizes := by
          refine List.map_injective_iff.mpr (Option.some_injective Nat) ?_
          rw [← shape, List.map_map]
          rfl
        have sum : ((assign (latest channel) size s.sizes).map Prod.snd).sum +
            (s.sizes.lookup (latest channel)).getD 0 = (s.sizes.map Prod.snd).sum + size :=
          sum_assign
        have before := tracked.bytes
        change s.bytes = _ at total
        have positive := encoding.positive value size encoded
        rw [same] at sum
        cases found : s.sizes.lookup (latest channel) with
        | none =>
            rw [found, Option.getD_none] at sum
            omega
        | some old =>
            rw [found, Option.getD_some] at sum
            have equal : old = size := by omega
            unfold replaces
            dsimp only
            rw [recorded, found, encoded, Option.map_some, equal]
  · exact fun replaced => (tracked.publish replaced).bounded

/-- A step keeps the limits and the count exactly if it is no publication or replaces a value of
its size. -/
theorem step_iff {a : ValueCall V} (tracked : s.Tracked encoding limits)
    (stepped : (valueMachine encoding limits).step s a = some t) :
    (s.replaces encoding a → t.Tracked encoding limits) ∧
      (t.Bounded encoding limits ↔ s.replaces encoding a) := by
  by_cases publishes : ∃ channel value now, a = .publish channel value now
  · obtain ⟨channel, value, now, rfl⟩ := publishes
    cases stepped
    exact ⟨tracked.publish, tracked.publish_iff channel value now⟩
  · have kept := tracked.step_stored stepped fun channel value now same =>
      publishes ⟨channel, value, now, same⟩
    have met : s.replaces encoding a := by
      cases a with
      | publish channel value now => exact absurd ⟨channel, value, now, rfl⟩ publishes
      | _ => trivial
    exact ⟨fun _ => kept, iff_of_true kept.bounded met⟩

end Tracked

end ValueTables

/-- In every run whose publications replace values of their encoded sizes the store is within its
limits and counts its bytes, and a further step keeps it so exactly if it meets the condition. -/
theorem values_bounded {encoding : ValueEncoding V} {limits : StoreLimits} {s : ValueTables V}
    (reached : ((valueMachine encoding limits).restrict fun s a =>
      s.replaces encoding a).Reachable s) :
    s.Bounded encoding limits ∧ ∀ a t, (valueMachine encoding limits).step s a = some t →
      (t.Bounded encoding limits ↔ s.replaces encoding a) := by
  have tracked : s.Tracked encoding limits := by
    refine reached.invariant ?_ ?_
    · rintro s rfl
      exact ValueTables.Tracked.initial
    · intro s a t tracked stepped
      obtain ⟨met, stepped⟩ := Machine.restrict_step.mp stepped
      exact (tracked.step_iff stepped).1 met
  exact ⟨tracked.bounded, fun a t stepped => (tracked.step_iff stepped).2⟩

/-- Revisions, with their decimal texts. -/
def numberEncoding : ValueEncoding Nat where
  encodedSize value := some (toString value).length
  positive value size encoded := by
    obtain rfl := Option.some.inj encoded
    exact Nat.pos_of_ne_zero fun empty => by
      simp at empty
  hasRevision value revision := some (decide ((value : Int) = revision))

def twoValues : StoreLimits where
  maxValues := 2
  maxValueBytes := 8

/-- A store of two values: one is evicted, and another published in the place of its size. -/
def evicting : List (ValueCall Nat) :=
  [.setJson "a" 1234 60 0 0, .setJson "pub:trip:latest" 567 60 1 1,
    .compareSetJson "c" (-1) 8 60 2, .getJson "a" 3, .publish "trip" 765 4]

theorem values_bounded_evicted : ∃ s,
    (valueMachine numberEncoding twoValues).run {} evicting = some s ∧ s.bytes = 4 ∧
      s.Bounded numberEncoding twoValues := by
  have ran : ∃ s, (valueMachine numberEncoding twoValues).run {} evicting = some s ∧
      s.bytes = 4 := by decide +kernel
  obtain ⟨s, ran, bytes⟩ := ran
  have met : (valueMachine numberEncoding twoValues).MeetsAlong
      (fun s a => s.replaces numberEncoding a) {} evicting := by
    refine ⟨trivial, fun _ stepped => ⟨trivial, fun _ next => ⟨trivial, fun _ third =>
      ⟨trivial, fun _ fourth => ⟨?_, fun _ _ => trivial⟩⟩⟩⟩⟩
    cases stepped
    cases next
    cases third
    cases fourth
    unfold ValueTables.replaces
    dsimp only
    decide +kernel
  exact ⟨s, ran, bytes, (values_bounded (Machine.reachable_restrict_of_run _ rfl ran met)).1⟩

/-- Published values are neither counted nor limited. -/
theorem publications_unbounded : ∃ s, (valueMachine numberEncoding twoValues).run {}
    [.publish "a" 1 0, .publish "b" 2 0, .publish "c" 3 0] = some s ∧
      s.values.length = 3 ∧ s.bytes = 0 ∧ ¬ s.Bounded numberEncoding twoValues := by
  refine ⟨_, rfl, rfl, rfl, fun bounded => ?_⟩
  exact absurd bounded.count (by decide)

end MapGo.Runtime
