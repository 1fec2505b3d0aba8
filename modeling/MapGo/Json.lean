import Mathlib

/-! JSON values, and dictionaries that keep the order of insertion. -/
namespace MapGo

inductive Json where
  | null
  | bool (value : Bool)
  | number (value : ℚ)
  | str (value : String)
  | array (items : List Json)
  | object (entries : List (String × Json))

abbrev Dict := List (String × Json)

namespace Json

/-- The value counts as true. -/
def truthy : Json → Bool
  | .null => false
  | .bool value => value
  | .number value => value ≠ 0
  | .str value => value ≠ ""
  | .array items => !items.isEmpty
  | .object entries => !entries.isEmpty

def entries : Json → Option Dict
  | .object entries => some entries
  | _ => none

@[simp] theorem entries_object {d : Dict} : (Json.object d).entries = some d := rfl

mutual

def same : Json → Json → Bool
  | .null, .null => true
  | .bool a, .bool b => a == b
  | .number a, .number b => a == b
  | .str a, .str b => a == b
  | .array a, .array b => sameItems a b
  | .object a, .object b => sameEntries a b
  | _, _ => false

def sameItems : List Json → List Json → Bool
  | [], [] => true
  | a :: as, b :: bs => same a b && sameItems as bs
  | _, _ => false

def sameEntries : List (String × Json) → List (String × Json) → Bool
  | [], [] => true
  | (key, a) :: as, (other, b) :: bs => key == other && same a b && sameEntries as bs
  | _, _ => false

end

mutual

theorem same_iff : ∀ a b : Json, same a b = true ↔ a = b
  | .null, b => by cases b <;> simp [same]
  | .bool a, b => by cases b <;> simp [same]
  | .number a, b => by cases b <;> simp [same]
  | .str a, b => by cases b <;> simp [same]
  | .array a, b => by cases b <;> simp [same, sameItems_iff a]
  | .object a, b => by cases b <;> simp [same, sameEntries_iff a]

theorem sameItems_iff : ∀ a b : List Json, sameItems a b = true ↔ a = b
  | [], b => by cases b <;> simp [sameItems]
  | a :: as, b => by cases b <;> simp [sameItems, same_iff a, sameItems_iff as]

theorem sameEntries_iff : ∀ a b : List (String × Json), sameEntries a b = true ↔ a = b
  | [], b => by cases b <;> simp [sameEntries]
  | (key, a) :: as, b => by
      cases b <;> simp [sameEntries, same_iff a, sameEntries_iff as, Prod.ext_iff]

end

instance : DecidableEq Json := fun a b => decidable_of_iff _ (same_iff a b)

end Json

namespace Dict

/-- An entry takes the place of the one under its key, or comes last. -/
def put (d : Dict) (key : String) (value : Json) : Dict :=
  if key ∈ d.map Prod.fst then d.map fun entry => if entry.1 = key then (key, value) else entry
  else d ++ [(key, value)]

def setdefault (d : Dict) (key : String) (value : Json) : Dict :=
  if key ∈ d.map Prod.fst then d else d ++ [(key, value)]

variable {d : Dict} {key other : String} {value : Json}

theorem lookup_eq_none_iff : d.lookup key = none ↔ key ∉ d.map Prod.fst := by
  rw [List.lookup_eq_none_iff]
  constructor
  · intro absent member
    obtain ⟨entry, found, rfl⟩ := List.mem_map.mp member
    simpa using absent entry found
  · intro absent entry found
    have different : key ≠ entry.1 := fun same => absent (same ▸ List.mem_map_of_mem found)
    simpa using different

theorem lookup_replaced_self (present : key ∈ d.map Prod.fst) :
    (d.map fun entry => if entry.1 = key then (key, value) else entry).lookup key = some value := by
  induction d with
  | nil => simp at present
  | cons entry rest ih =>
      by_cases same : entry.1 = key
      · simp [same]
      · have later : key ∈ rest.map Prod.fst := by
          simpa [Ne.symm same] using present
        have different : (key == entry.1) = false := by simpa using Ne.symm same
        rw [List.map_cons, if_neg same, List.lookup_cons, different]
        exact ih later

theorem lookup_replaced_of_ne (different : other ≠ key) :
    (d.map fun entry => if entry.1 = key then (key, value) else entry).lookup other =
      d.lookup other := by
  induction d with
  | nil => rfl
  | cons entry rest ih =>
      rw [List.map_cons]
      by_cases same : entry.1 = key
      · have apart : (other == key) = false := by simpa using different
        rw [if_pos same, List.lookup_cons, List.lookup_cons, same, apart, ih]
      · rw [if_neg same, List.lookup_cons, List.lookup_cons, ih]

@[simp] theorem lookup_put_self : (d.put key value).lookup key = some value := by
  unfold put
  split
  next present => exact lookup_replaced_self present
  next absent =>
    rw [List.lookup_append, lookup_eq_none_iff.mpr absent]
    simp

theorem lookup_put_of_ne (different : other ≠ key) :
    (d.put key value).lookup other = d.lookup other := by
  have apart : (other == key) = false := by simpa using different
  unfold put
  split
  · exact lookup_replaced_of_ne different
  · rw [List.lookup_append, List.lookup_cons, apart]
    simp

theorem setdefault_of_lookup {found : Json} (present : d.lookup key = some found) :
    d.setdefault key value = d := by
  unfold setdefault
  rw [if_pos]
  by_contra absent
  rw [lookup_eq_none_iff.mpr absent] at present
  contradiction

theorem lookup_setdefault_of_ne (different : other ≠ key) :
    (d.setdefault key value).lookup other = d.lookup other := by
  have apart : (other == key) = false := by simpa using different
  unfold setdefault
  split
  · rfl
  · rw [List.lookup_append, List.lookup_cons, apart]
    simp

/-- A new entry brings no other key. -/
theorem mem_keys_put {name : String} :
    name ∈ (d.put key value).map Prod.fst ↔ name ∈ d.map Prod.fst ∨ name = key := by
  unfold put
  split
  next present =>
    have kept : (d.map fun entry => if entry.1 = key then (key, value) else entry).map Prod.fst =
        d.map Prod.fst := by
      rw [List.map_map]
      refine List.map_congr_left fun entry _ => ?_
      by_cases same : entry.1 = key
      · simp [same]
      · simp [same]
    rw [kept]
    constructor
    · exact .inl
    · rintro (member | rfl)
      · exact member
      · exact present
  next => simp

theorem mem_keys_setdefault {name : String} :
    name ∈ (d.setdefault key value).map Prod.fst ↔ name ∈ d.map Prod.fst ∨ name = key := by
  unfold setdefault
  split
  next present =>
    constructor
    · exact .inl
    · rintro (member | rfl)
      · exact member
      · exact present
  next => simp

end Dict
end MapGo
