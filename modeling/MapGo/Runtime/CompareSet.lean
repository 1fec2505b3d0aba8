import MapGo.Planning.CriticCall
import MapGo.Runtime.ValueBounds

/-! Writes that are conditioned on a revision, in memory and by the Lua script in Redis. Python reads
the revision with `int` and a default, Lua with `tonumber` as a double; the same stored value may
count as different revisions. -/
namespace MapGo.Runtime

open Assoc
open MapGo.Planning (intOf)

/-- A number of Lua that is not NaN. -/
inductive LuaNumber where
  | finite (value : ℚ)
  | infinity (negative : Bool)
  deriving DecidableEq

/-- The double nearest to a natural number from `2 ^ 53` on, ties to even. -/
def roundLarge (n : Nat) : Nat :=
  let unit := 2 ^ (Nat.log2 n - 52)
  let units := n / unit
  let rest := n % unit
  if unit < 2 * rest ∨ (unit = 2 * rest ∧ units % 2 = 1) then (units + 1) * unit
  else units * unit

/-- The double of an integer: `strtod` of its decimal text. -/
def double (n : Int) : LuaNumber :=
  if n.natAbs ≤ 2 ^ 53 then .finite n
  else if 2 ^ 1024 ≤ roundLarge n.natAbs then .infinity (n < 0)
  else .finite (n.sign * roundLarge n.natAbs)

/-- What the script uses of Lua beyond numbers. -/
structure LuaLibrary where
  /-- `cjson.decode` accepts the text of the value (it bounds the nesting). -/
  decodes : Loaded → Bool
  /-- `tonumber` of a text. -/
  tonumber : String → Option LuaNumber

/-- `tonumber` of a decoded value; NaN is no number as it equals none. -/
def LuaLibrary.number (lua : LuaLibrary) : Loaded → Option LuaNumber
  | .int value => some (double value)
  | .float value => some (.finite value)
  | .infinity negative => some (.infinity negative)
  | .str text => lua.tonumber text
  | _ => none

/-- `RedisRuntimeStore.compare_set_json` on the value of the key; without an answer the script
fails. -/
def redisCompareSet (lua : LuaLibrary) (stored : Option Loaded) (expectedRevision : Int)
    (value : Loaded) (ttlSeconds : Int) : Option Bool × Option Loaded :=
  let matched : Option Bool := match stored with
    | none => some (decide (double expectedRevision = double (-1)))
    | some current =>
        if ¬ lua.decodes current then none
        else match current with
          | .dict entries => some (decide
              ((entries.lookup "revision").bind lua.number = some (double expectedRevision)))
          -- a list has no such member, and a text looks it up in the string library
          | .list _ | .str _ => some false
          | _ => none
  match matched with
  | none => (none, stored)
  | some false => (some false, stored)
  | some true => if ttlSeconds ≤ 0 then (none, stored) else (some true, some value)

/-- `int(current_value.get("revision", -1)) == expected_revision` of a mapping. -/
def hasRevision (current : Loaded) (expectedRevision : Int) : Option Bool :=
  match current with
  | .dict entries =>
      match intOf ((entries.lookup "revision").getD (.int (-1))) with
      | .ok revision => some (decide (revision = expectedRevision))
      | .error _ => none
  | _ => some false

def jsonEncoding (encodedSize : Loaded → Option Nat)
    (positive : ∀ value size, encodedSize value = some size → 0 < size) : ValueEncoding Loaded where
  encodedSize := encodedSize
  positive := positive
  hasRevision := hasRevision

/-- `InMemoryRuntimeStore.compare_set_json` on the value of the key alone. -/
def memoryCompareSet (stored : Option Loaded) (expectedRevision : Int) (value : Loaded) :
    Option Bool × Option Loaded :=
  let matched := stored.elim (some (decide (expectedRevision = -1))) fun current =>
    hasRevision current expectedRevision
  (matched, if matched = some true then some value else stored)

/-- The revisions that both stores read alike: a mapping without one is not expected to have -1,
and one that `int` converts is equal for Lua when it is for Python, and not -1. -/
def Coherent (lua : LuaLibrary) (expectedRevision : Int) : Option Loaded → Prop
  | none => True
  | some (.dict entries) => lua.decodes (.dict entries) = true ∧
      (entries.lookup "revision" = none → expectedRevision ≠ -1) ∧
      ∀ stored, entries.lookup "revision" = some stored → ∃ revision,
        intOf stored = .ok revision ∧
        (lua.number stored = some (double expectedRevision) ↔ revision = expectedRevision) ∧
        ¬ (revision = -1 ∧ expectedRevision = -1)
  | some (.list items) => lua.decodes (.list items) = true
  | some (.str text) => lua.decodes (.str text) = true
  | _ => False

/-- Both stores decide alike and leave the same value, and write for -1 to no value alone. -/
def Agree (stored : Option Loaded) (expected : Int)
    (memory redis : Option Bool × Option Loaded) : Prop :=
  ∃ answer, memory.1 = some answer ∧ redis.1 = some answer ∧ memory.2 = redis.2 ∧
    (expected = -1 → answer = true → stored = none)

section
variable {lua : LuaLibrary} {n : Int} {expected ttl : Int} {value : Loaded}
  {stored : Option Loaded}

theorem double_small (small : n.natAbs ≤ 2 ^ 53) : double n = .finite n := if_pos small

theorem roundLarge_gt_one {n : Nat} (large : 2 ^ 53 < n) : 1 < roundLarge n := by
  have positive : n ≠ 0 := by omega
  have bits : 53 ≤ Nat.log2 n := (Nat.le_log2 positive).mpr large.le
  have below : 2 ^ (Nat.log2 n - 52) ≤ n :=
    (Nat.pow_le_pow_right (by decide) (Nat.sub_le ..)).trans (Nat.log2_self_le positive)
  have unit : 2 ≤ 2 ^ (Nat.log2 n - 52) :=
    (Nat.pow_le_pow_right (by decide) (by omega : 1 ≤ Nat.log2 n - 52)).trans' (by decide)
  have units : 1 ≤ n / 2 ^ (Nat.log2 n - 52) :=
    (Nat.one_le_div_iff (by omega)).mpr below
  have product : 2 ≤ n / 2 ^ (Nat.log2 n - 52) * 2 ^ (Nat.log2 n - 52) :=
    unit.trans (Nat.le_mul_of_pos_left _ units)
  unfold roundLarge
  dsimp only
  split
  · rw [Nat.succ_mul]
    omega
  · omega

/-- Only -1 is read as -1. -/
theorem double_eq_neg_one : double n = double (-1) ↔ n = -1 := by
  refine ⟨fun same => ?_, fun same => same ▸ rfl⟩
  have one : double (-1) = .finite ((-1 : Int) : ℚ) := double_small (by decide)
  rw [one] at same
  unfold double at same
  split at same
  · exact_mod_cast LuaNumber.finite.inj same
  · rename_i large
    split at same
    · exact LuaNumber.noConfusion same
    · have bigger := roundLarge_gt_one (not_le.mp large)
      have product : n.sign * (roundLarge n.natAbs : Int) = -1 := by
        exact_mod_cast LuaNumber.finite.inj same
      have unit := congrArg Int.natAbs product
      rw [Int.natAbs_mul] at unit
      have one := Nat.eq_one_of_mul_eq_one_left unit
      rw [Int.natAbs_natCast] at one
      omega

/-- What the in-memory store does to the value of a key is `memoryCompareSet`. -/
theorem compareSetJson_eq {encodedSize : Loaded → Option Nat}
    {positive : ∀ value size, encodedSize value = some size → 0 < size} {limits : StoreLimits}
    (s : ValueTables Loaded) (key : String) (expected : Int) (value : Loaded) (ttl : Int) (now : ℚ)
    {size : Nat} (encoded : encodedSize value = some size) (fits : size ≤ limits.maxValueBytes) :
    let written := s.compareSetJson (jsonEncoding encodedSize positive) limits key expected value
      ttl now
    (written.1, (written.2.values.lookup key).map Prod.fst) =
      memoryCompareSet (((s.purgeExpiredValues now).values.lookup key).map Prod.fst) expected
        value := by
  unfold ValueTables.compareSetJson memoryCompareSet
  dsimp only [jsonEncoding]
  rw [encoded]
  dsimp only
  rw [if_neg (not_lt.mpr fits)]
  generalize s.purgeExpiredValues now = purged
  have stored : (((purged.store limits key value size (now + ttl)).values.lookup key).map
      Prod.fst) = some value := by
    unfold ValueTables.store
    dsimp only
    rw [lookup_assign, if_pos rfl]
    rfl
  cases found : purged.values.lookup key with
  | none =>
      by_cases absent : expected = -1
      · simp [absent, stored]
      · simp [absent, found]
  | some current =>
      cases matched : hasRevision current.1 expected with
      | none => simp [matched, found]
      | some answer => cases answer <;> simp [matched, found, stored]

/-- A value whose revision the script does not find. -/
theorem agree_unmatched {current : Loaded} (memory : hasRevision current expected = some false)
    (redis : redisCompareSet lua (some current) expected value ttl =
      (if lua.decodes current then some false else none, some current)) :
    Agree (some current) expected (memoryCompareSet (some current) expected value)
      (redisCompareSet lua (some current) expected value ttl) ↔ lua.decodes current = true := by
  rw [redis]
  unfold Agree memoryCompareSet
  rw [Option.elim_some, memory]
  cases lua.decodes current <;> simp

/-- A mapping without revision has -1 in memory and none in Redis. -/
theorem agree_unrevised {entries : List (String × Loaded)}
    (absent : entries.lookup "revision" = none) :
    Agree (some (.dict entries)) expected (memoryCompareSet (some (.dict entries)) expected value)
        (redisCompareSet lua (some (.dict entries)) expected value ttl) ↔
      lua.decodes (.dict entries) = true ∧ expected ≠ -1 := by
  have memory : hasRevision (.dict entries) expected = some (decide (-1 = expected)) := by
    simp [hasRevision, absent, intOf]
  unfold Agree memoryCompareSet redisCompareSet
  dsimp only
  rw [Option.elim_some, memory, absent]
  cases lua.decodes (.dict entries) with
  | false => simp
  | true =>
      by_cases unset : expected = -1
      · simp [unset]
      · simp [unset, Ne.symm unset]

/-- A revision is read alike if `int` converts it and Lua finds the same equality. -/
theorem agree_revised (positive : 0 < ttl) {entries : List (String × Loaded)} {revision : Loaded}
    (found : entries.lookup "revision" = some revision) :
    Agree (some (.dict entries)) expected (memoryCompareSet (some (.dict entries)) expected value)
        (redisCompareSet lua (some (.dict entries)) expected value ttl) ↔
      lua.decodes (.dict entries) = true ∧ ∃ n, intOf revision = .ok n ∧
        (lua.number revision = some (double expected) ↔ n = expected) ∧
        ¬ (n = -1 ∧ expected = -1) := by
  unfold Agree memoryCompareSet redisCompareSet
  dsimp only
  rw [Option.elim_some, found, Option.bind_some]
  cases decoded : lua.decodes (.dict entries) with
  | false => simp
  | true =>
      cases read : intOf revision with
      | error error =>
          have memory : hasRevision (.dict entries) expected = none := by
            simp [hasRevision, found, read]
          simp [memory]
      | ok n =>
          have memory : hasRevision (.dict entries) expected = some (decide (n = expected)) := by
            simp [hasRevision, found, read]
          rw [memory]
          by_cases same : n = expected
          · by_cases equal : lua.number revision = some (double expected) <;>
              simp [equal, same, not_le.mpr positive]
          · have apart : ¬ (n = -1 ∧ expected = -1) := fun both =>
              same (both.1.trans both.2.symm)
            by_cases equal : lua.number revision = some (double expected)
            · simp [equal, same, not_le.mpr positive]
            · simpa [equal, same] using not_and.mp apart

theorem agree_iff (positive : 0 < ttl) :
    Agree stored expected (memoryCompareSet stored expected value)
      (redisCompareSet lua stored expected value ttl) ↔ Coherent lua expected stored := by
  cases stored with
  | none =>
      refine iff_of_true ?_ trivial
      unfold Agree redisCompareSet memoryCompareSet
      dsimp only
      have absent : decide (double expected = double (-1)) = decide (expected = -1) :=
        decide_eq_decide.mpr double_eq_neg_one
      rw [absent]
      by_cases unset : expected = -1 <;> simp [unset, not_le.mpr positive]
  | some current =>
      cases current with
      | dict entries =>
          cases found : entries.lookup "revision" with
          | none =>
              rw [agree_unrevised found, Coherent, found]
              simp
          | some revision =>
              rw [agree_revised positive found, Coherent, found]
              simp
      | list items => exact agree_unmatched rfl (by cases decoded : lua.decodes (.list items) <;>
          simp [redisCompareSet, decoded])
      | str text => exact agree_unmatched rfl (by cases decoded : lua.decodes (.str text) <;>
          simp [redisCompareSet, decoded])
      | _ => simp [Agree, Coherent, redisCompareSet]

/-- An integer revision is read alike when doubles tell it from the expected one. -/
theorem coherent_int {entries : List (String × Loaded)} {n : Int}
    (decoded : lua.decodes (.dict entries) = true)
    (found : entries.lookup "revision" = some (.int n)) (small : n.natAbs ≤ 2 ^ 53)
    (near : expected.natAbs ≤ 2 ^ 53) (created : ¬ (n = -1 ∧ expected = -1)) :
    Coherent lua expected (some (.dict entries)) := by
  refine ⟨decoded, fun absent => ?_, fun stored same => ?_⟩
  · rw [found] at absent
    contradiction
  · obtain rfl := Option.some.inj (found.symm.trans same)
    refine ⟨n, rfl, ?_, created⟩
    rw [LuaLibrary.number, double_small small, double_small near, Option.some.injEq,
      LuaNumber.finite.injEq, Int.cast_inj]

end

/-- Values of some bytes, decoded at any nesting; texts are no numbers. -/
def plainLua : LuaLibrary where
  decodes _ := true
  tonumber _ := none

def sharedState (revision : Int) : Loaded :=
  .dict [("phase", .str "in_trip"), ("revision", .int revision)]

def tables (value : Loaded) : ValueTables Loaded where
  values := [("trip-1", (value, 100))]
  sizes := [("trip-1", 40)]
  bytes := 40

end MapGo.Runtime
