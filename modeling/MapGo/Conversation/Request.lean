import MapGo.Records
import MapGo.Route.Schema
import MapGo.Text

/-! The planning request as it is stored with a conversation, with the checks of each field. -/
namespace MapGo.Conversation

open MapGo.Route (TransportMode)

/-- How single values are read and written; reading may accept more than what is written. -/
structure Leaves where
  Time : Type
  time : Format Time
  int : Format Int
  float : Format ℚ
  bool : Format Bool
  time_written : ∀ t, time.dump t ≠ .null
  int_written : ∀ n, int.dump n ≠ .null
  float_written : ∀ q, float.dump q ≠ .null

namespace Leaves
variable (L : Leaves)

/-- `int` with `ge=0` and `le=maximum` -/
def bounded (maximum : Int) : Format {n : Int // 0 ≤ n ∧ n ≤ maximum} :=
  L.int.restrict fun n => 0 ≤ n ∧ n ≤ maximum

/-- `float | None` with `ge=0` -/
def amount : Format (Option {q : ℚ // 0 ≤ q}) :=
  (L.float.restrict (0 ≤ ·)).nullable fun q => L.float_written q.val

/-- `int | None` with `ge=0` and `le=maximum` -/
def duration (maximum : Int) : Format (Option {n : Int // 0 ≤ n ∧ n ≤ maximum}) :=
  (L.bounded maximum).nullable fun n => L.int_written n.val

def optionalTime : Format (Option L.Time) := L.time.nullable L.time_written

end Leaves

/-- `str` with `min_length` and `max_length` -/
def sizedText (minimum maximum : Nat) :
    Format {text : String // minimum ≤ text.length ∧ text.length ≤ maximum} :=
  Format.text.restrict fun text => minimum ≤ text.length ∧ text.length ≤ maximum

/-- `list[str]` with `max_length` -/
def texts (maximum : Nat) : Format {items : List String // items.length ≤ maximum} :=
  Format.text.list.restrict fun items => items.length ≤ maximum

inductive PartyField where
  | adults | elderly | children | wheelchairUsers | pets | hasLuggage
  deriving DecidableEq, Repr

namespace PartyField

def all : List PartyField := [adults, elderly, children, wheelchairUsers, pets, hasLuggage]

def key : PartyField → String
  | adults => "adults"
  | elderly => "elderly"
  | children => "children"
  | wheelchairUsers => "wheelchair_users"
  | pets => "pets"
  | hasLuggage => "has_luggage"

def Value : PartyField → Type
  | adults | elderly | children => {n : Int // 0 ≤ n ∧ n ≤ 50}
  | wheelchairUsers | pets => {n : Int // 0 ≤ n ∧ n ≤ 20}
  | hasLuggage => Bool

end PartyField

def partyProfile (L : Leaves) : Schema where
  Field := PartyField
  fields := PartyField.all
  key := PartyField.key
  Value := PartyField.Value
  format
    | .adults | .elderly | .children => L.bounded 50
    | .wheelchairUsers | .pets => L.bounded 20
    | .hasLuggage => L.bool
  initial
    | .adults => some ⟨1, by decide⟩
    | .elderly | .children => some ⟨0, by decide⟩
    | .wheelchairUsers | .pets => some ⟨0, by decide⟩
    | .hasLuggage => some false
  complete f := by cases f <;> decide
  distinct f g same := by cases f <;> cases g <;> first | rfl | exact absurd same (by decide)

inductive HardField where
  | latestReturnTime | maxWalkingMeters | maxTotalDurationMinutes | maxTotalCostYuan
  | mustReturnToOrigin | requiredTaskOrder | maxDetourMeters | avoidAreas | mustPassAreas
  | allowedDistricts | wheelchairAccessible | party | transportBudgetYuan | diningBudgetYuan
  | ticketBudgetYuan
  deriving DecidableEq, Repr

namespace HardField

def all : List HardField :=
  [latestReturnTime, maxWalkingMeters, maxTotalDurationMinutes, maxTotalCostYuan,
    mustReturnToOrigin, requiredTaskOrder, maxDetourMeters, avoidAreas, mustPassAreas,
    allowedDistricts, wheelchairAccessible, party, transportBudgetYuan, diningBudgetYuan,
    ticketBudgetYuan]

def key : HardField → String
  | latestReturnTime => "latest_return_time"
  | maxWalkingMeters => "max_walking_meters"
  | maxTotalDurationMinutes => "max_total_duration_minutes"
  | maxTotalCostYuan => "max_total_cost_yuan"
  | mustReturnToOrigin => "must_return_to_origin"
  | requiredTaskOrder => "required_task_order"
  | maxDetourMeters => "max_detour_meters"
  | avoidAreas => "avoid_areas"
  | mustPassAreas => "must_pass_areas"
  | allowedDistricts => "allowed_districts"
  | wheelchairAccessible => "wheelchair_accessible"
  | party => "party"
  | transportBudgetYuan => "transport_budget_yuan"
  | diningBudgetYuan => "dining_budget_yuan"
  | ticketBudgetYuan => "ticket_budget_yuan"

def Value (L : Leaves) : HardField → Type
  | latestReturnTime => Option L.Time
  | maxTotalDurationMinutes => Option {n : Int // 0 ≤ n ∧ n ≤ 10080}
  | mustReturnToOrigin | wheelchairAccessible => Bool
  | requiredTaskOrder => List Int
  | avoidAreas | mustPassAreas | allowedDistricts => {items : List String // items.length ≤ 20}
  | party => (partyProfile L).Model
  | _ => Option {q : ℚ // 0 ≤ q}

end HardField

def hardConstraints (L : Leaves) : Schema where
  Field := HardField
  fields := HardField.all
  key := HardField.key
  Value := HardField.Value L
  format
    | .latestReturnTime => L.optionalTime
    | .maxTotalDurationMinutes => L.duration 10080
    | .mustReturnToOrigin | .wheelchairAccessible => L.bool
    | .requiredTaskOrder => L.int.list
    | .avoidAreas | .mustPassAreas | .allowedDistricts => texts 20
    | .party => (partyProfile L).formatted
    | .maxWalkingMeters | .maxTotalCostYuan | .maxDetourMeters | .transportBudgetYuan
    | .diningBudgetYuan | .ticketBudgetYuan => L.amount
  initial
    | .latestReturnTime => some none
    | .maxTotalDurationMinutes => some none
    | .mustReturnToOrigin | .wheelchairAccessible => some false
    | .requiredTaskOrder => some []
    | .avoidAreas | .mustPassAreas | .allowedDistricts => some ⟨[], Nat.zero_le _⟩
    | .party => (partyProfile L).collect (partyProfile L).initial
    | .maxWalkingMeters | .maxTotalCostYuan | .maxDetourMeters | .transportBudgetYuan
    | .diningBudgetYuan | .ticketBudgetYuan => some none
  complete f := by cases f <;> decide
  distinct f g same := by cases f <;> cases g <;> first | rfl | exact absurd same (by decide)

inductive UncertainField where
  | field | reason | confidence | safetyBufferMinutes
  deriving DecidableEq, Repr

namespace UncertainField

def all : List UncertainField := [field, reason, confidence, safetyBufferMinutes]

def key : UncertainField → String
  | field => "field"
  | reason => "reason"
  | confidence => "confidence"
  | safetyBufferMinutes => "safety_buffer_minutes"

def Value : UncertainField → Type
  | field => {text : String // 1 ≤ text.length ∧ text.length ≤ 100}
  | reason => {text : String // 1 ≤ text.length ∧ text.length ≤ 300}
  | confidence => {q : ℚ // 0 ≤ q ∧ q ≤ 1}
  | safetyBufferMinutes => {n : Int // 0 ≤ n ∧ n ≤ 240}

end UncertainField

def uncertainConstraint (L : Leaves) : Schema where
  Field := UncertainField
  fields := UncertainField.all
  key := UncertainField.key
  Value := UncertainField.Value
  format
    | .field => sizedText 1 100
    | .reason => sizedText 1 300
    | .confidence => L.float.restrict fun q => 0 ≤ q ∧ q ≤ 1
    | .safetyBufferMinutes => L.bounded 240
  initial
    | .safetyBufferMinutes => some ⟨0, by decide⟩
    | _ => none
  complete f := by cases f <;> decide
  distinct f g same := by cases f <;> cases g <;> first | rfl | exact absurd same (by decide)

inductive ConstraintField where
  | hard | uncertain
  deriving DecidableEq, Repr

namespace ConstraintField

def key : ConstraintField → String
  | hard => "hard"
  | uncertain => "uncertain"

def Value (L : Leaves) : ConstraintField → Type
  | hard => (hardConstraints L).Model
  | uncertain => List (uncertainConstraint L).Model

end ConstraintField

def tripConstraintSet (L : Leaves) : Schema where
  Field := ConstraintField
  fields := [.hard, .uncertain]
  key := ConstraintField.key
  Value := ConstraintField.Value L
  format
    | .hard => (hardConstraints L).formatted
    | .uncertain => (uncertainConstraint L).formatted.list
  initial
    | .hard => (hardConstraints L).collect (hardConstraints L).initial
    | .uncertain => some []
  complete f := by cases f <;> decide
  distinct f g same := by cases f <;> cases g <;> first | rfl | exact absurd same (by decide)

inductive CoordinateField where
  | lng | lat
  deriving DecidableEq, Repr

namespace CoordinateField

def key : CoordinateField → String
  | lng => "lng"
  | lat => "lat"

def Value : CoordinateField → Type
  | lng => {q : ℚ // -180 ≤ q ∧ q ≤ 180}
  | lat => {q : ℚ // -90 ≤ q ∧ q ≤ 90}

end CoordinateField

def coordinate (L : Leaves) : Schema where
  Field := CoordinateField
  fields := [.lng, .lat]
  key := CoordinateField.key
  Value := CoordinateField.Value
  format
    | .lng => L.float.restrict fun q => -180 ≤ q ∧ q ≤ 180
    | .lat => L.float.restrict fun q => -90 ≤ q ∧ q ≤ 90
  initial _ := none
  complete f := by cases f <;> decide
  distinct f g same := by cases f <;> cases g <;> first | rfl | exact absurd same (by decide)

def transportModeValue : TransportMode → String
  | .walking => "walking"
  | .driving => "driving"
  | .transit => "transit"
  | .cycling => "cycling"

def transportMode : Format TransportMode where
  validate
    | .str value => TransportMode.all.find? fun mode => transportModeValue mode = value
    | _ => none
  dump mode := .str (transportModeValue mode)
  validate_dump mode := by cases mode <;> decide

def booleanPreferences : List String :=
  ["minimize_distance", "minimize_walking", "minimize_cost", "prefer_high_rating", "avoid_queues",
    "avoid_hiking"]

def optimizationGoals : List String := ["balanced", "shortest_time", "shortest_distance"]

def travelStyles : List String := ["balanced", "relaxed", "intensive"]

def environments : List String := ["quiet", "uncrowded", "indoor", "outdoor"]

/-- A text that is not blank, of at most 50 characters. -/
def listItem : Json → Bool
  | .str item => item.toList.any (!Text.isSpace ·) && item.length ≤ 50
  | _ => false

def environmentItem : Json → Bool
  | .str item => item ∈ environments
  | _ => false

/-- One of the texts, or nothing. -/
def choice (values : List String) : Json → Option Json
  | .null => some .null
  | .str value => if value ∈ values then some (.str value) else none
  | _ => none

/-- A list of at most `limit` valid items; a single text counts as a list. -/
def itemList (limit : Nat) (valid : Json → Bool) : Json → Option Json
  | .str value => if 1 ≤ limit ∧ valid (.str value) then some (.array [.str value]) else none
  | .array items => if items.length ≤ limit ∧ items.all valid then some (.array items) else none
  | _ => none

/-- `validate_preference_answers` of one entry, with the value it keeps. -/
def preferenceAnswer (key : String) (value : Json) : Option Json :=
  if key ∈ booleanPreferences then
    match value with
    | .bool answer => some (.bool answer)
    | _ => none
  else if key = "optimization_goal" then choice optimizationGoals value
  else if key = "travel_style" then choice travelStyles value
  else if key = "dietary_restrictions" then itemList 20 listItem value
  else if key = "preferred_categories" then itemList 10 listItem value
  else if key = "preferred_environment" then
    match value with
    | .null => some .null
    | value => itemList 4 environmentItem value
  else none

theorem choice_kept {values : List String} {value kept : Json}
    (chosen : choice values value = some kept) : kept = value := by
  unfold choice at chosen
  split at chosen
  · exact (Option.some.inj chosen).symm
  · split at chosen
    · exact (Option.some.inj chosen).symm
    · contradiction
  · contradiction

theorem itemList_kept {limit : Nat} {valid : Json → Bool} {value kept : Json}
    (listed : itemList limit valid value = some kept) :
    itemList limit valid kept = some kept ∧ kept ≠ .null := by
  unfold itemList at listed
  split at listed
  next text =>
    split at listed
    next one =>
      obtain rfl := Option.some.inj listed
      exact ⟨by simp [itemList, one], by simp⟩
    next => contradiction
  next items =>
    split at listed
    next fits =>
      obtain rfl := Option.some.inj listed
      exact ⟨if_pos fits, by simp⟩
    next => contradiction
  next => contradiction

/-- What is kept is kept as it is. -/
theorem preferenceAnswer_kept {key : String} {value kept : Json}
    (answered : preferenceAnswer key value = some kept) :
    preferenceAnswer key kept = some kept := by
  unfold preferenceAnswer at answered ⊢
  split at answered
  next boolean =>
    rw [if_pos boolean]
    split at answered
    · obtain rfl := Option.some.inj answered
      rfl
    · contradiction
  next other =>
    rw [if_neg other]
    split at answered
    next goal =>
      obtain rfl := choice_kept answered
      rwa [if_pos goal]
    next other =>
      rw [if_neg other]
      split at answered
      next style =>
        obtain rfl := choice_kept answered
        rwa [if_pos style]
      next other =>
        rw [if_neg other]
        split at answered
        next diet =>
          rw [if_pos diet]
          exact (itemList_kept answered).1
        next other =>
          rw [if_neg other]
          split at answered
          next categories =>
            rw [if_pos categories]
            exact (itemList_kept answered).1
          next other =>
            rw [if_neg other]
            split at answered
            next environment =>
              rw [if_pos environment]
              split at answered
              · obtain rfl := Option.some.inj answered
                rfl
              · obtain ⟨again, written⟩ := itemList_kept answered
                split
                · exact absurd rfl written
                · exact again
            next => contradiction

/-- A checked entry of `preferences_answers`. -/
abbrev PreferenceAnswer :=
  {entry : String × Json // preferenceAnswer entry.1 entry.2 = some entry.2}

def readPreference (entry : String × Json) : Option PreferenceAnswer :=
  if valid : (preferenceAnswer entry.1 entry.2).isSome then
    some ⟨(entry.1, (preferenceAnswer entry.1 entry.2).get valid),
      preferenceAnswer_kept (Option.some_get valid).symm⟩
  else none

def preferenceAnswers : Format (List PreferenceAnswer) where
  validate
    | .object entries => entries.mapM readPreference
    | _ => none
  dump answers := .object (answers.map Subtype.val)
  validate_dump answers := by
    refine Format.mapM_dump (fun answer => ?_) answers
    have valid : (preferenceAnswer answer.val.1 answer.val.2).isSome := by
      rw [answer.property]
      rfl
    rw [readPreference, dif_pos valid]
    refine congrArg some (Subtype.ext (Prod.ext rfl ?_))
    exact Option.get_of_eq_some _ answer.property

def humanConfirmationKeys : List String := ["walking_distance", "estimated_cost"]

def humanConfirmations (L : Leaves) : Format
    {answers : List (String × Bool) // ∀ answer ∈ answers, answer.1 ∈ humanConfirmationKeys} :=
  L.bool.dict.restrict fun answers => ∀ answer ∈ answers, answer.1 ∈ humanConfirmationKeys

inductive RequestField where
  | text | origin | departureTime | transportMode | defaultServiceDurationMinutes | city
  | constraints | maxCandidatesPerTask | taskPoiOverrides | taskLocationOverrides
  | taskFieldOverrides | preferencesAnswers | humanConfirmations | useLongTermMemory
  deriving DecidableEq, Repr

namespace RequestField

def all : List RequestField :=
  [text, origin, departureTime, transportMode, defaultServiceDurationMinutes, city, constraints,
    maxCandidatesPerTask, taskPoiOverrides, taskLocationOverrides, taskFieldOverrides,
    preferencesAnswers, humanConfirmations, useLongTermMemory]

def key : RequestField → String
  | text => "text"
  | origin => "origin"
  | departureTime => "departure_time"
  | transportMode => "transport_mode"
  | defaultServiceDurationMinutes => "default_service_duration_minutes"
  | city => "city"
  | constraints => "constraints"
  | maxCandidatesPerTask => "max_candidates_per_task"
  | taskPoiOverrides => "task_poi_overrides"
  | taskLocationOverrides => "task_location_overrides"
  | taskFieldOverrides => "task_field_overrides"
  | preferencesAnswers => "preferences_answers"
  | humanConfirmations => "human_confirmations"
  | useLongTermMemory => "use_long_term_memory"

def Value (L : Leaves) : RequestField → Type
  | text => {text : String // 2 ≤ text.length ∧ text.length ≤ 4000}
  | origin => Option (coordinate L).Model
  | departureTime => Option L.Time
  | transportMode => Option TransportMode
  | defaultServiceDurationMinutes => {n : Int // 0 ≤ n ∧ n ≤ 240}
  | city => Option {text : String // 0 ≤ text.length ∧ text.length ≤ 50}
  | constraints => Option (tripConstraintSet L).Model
  | maxCandidatesPerTask => {n : Int // 1 ≤ n ∧ n ≤ 5}
  | taskPoiOverrides | taskLocationOverrides => List (String × String)
  | taskFieldOverrides => List (String × List (String × Json))
  | preferencesAnswers => List PreferenceAnswer
  | humanConfirmations =>
      {answers : List (String × Bool) // ∀ answer ∈ answers, answer.1 ∈ humanConfirmationKeys}
  | useLongTermMemory => Bool

end RequestField

def aiPlanRequest (L : Leaves) : Schema where
  Field := RequestField
  fields := RequestField.all
  key := RequestField.key
  Value := RequestField.Value L
  format
    | .text => sizedText 2 4000
    | .origin => (coordinate L).formatted.nullable nofun
    | .departureTime => L.optionalTime
    | .transportMode => transportMode.nullable nofun
    | .defaultServiceDurationMinutes => L.bounded 240
    | .city => (sizedText 0 50).nullable nofun
    | .constraints => (tripConstraintSet L).formatted.nullable nofun
    | .maxCandidatesPerTask => L.int.restrict fun n => 1 ≤ n ∧ n ≤ 5
    | .taskPoiOverrides | .taskLocationOverrides => Format.text.dict
    | .taskFieldOverrides => Format.any.dict.dict
    | .preferencesAnswers => preferenceAnswers
    | .humanConfirmations => humanConfirmations L
    | .useLongTermMemory => L.bool
  initial
    | .text => none
    | .origin | .departureTime | .transportMode | .city | .constraints => some none
    | .defaultServiceDurationMinutes => some ⟨15, by decide⟩
    | .maxCandidatesPerTask => some ⟨3, by decide⟩
    | .taskPoiOverrides | .taskLocationOverrides | .taskFieldOverrides | .preferencesAnswers =>
        some []
    | .humanConfirmations => some ⟨[], nofun⟩
    | .useLongTermMemory => some true
  complete f := by cases f <;> decide
  distinct f g same := by cases f <;> cases g <;> first | rfl | exact absurd same (by decide)

/-- A stored planning request. -/
abbrev PlanRequest (L : Leaves) := (aiPlanRequest L).Model

/-- Values read from their own JSON types only; times are texts. -/
def Leaves.plain : Leaves where
  Time := String
  time := .text
  int :=
    { validate := fun
        | .number value => if value.den = 1 then some value.num else none
        | _ => none
      dump := fun n => .number n
      validate_dump := fun n => by simp }
  float :=
    { validate := fun
        | .number value => some value
        | _ => none
      dump := .number
      validate_dump := fun _ => rfl }
  bool :=
    { validate := fun
        | .bool value => some value
        | _ => none
      dump := .bool
      validate_dump := fun _ => rfl }
  time_written := nofun
  int_written := nofun
  float_written := nofun

/-- A request with a text alone. -/
def plainRequest (text : {text : String // 2 ≤ text.length ∧ text.length ≤ 4000}) :
    PlanRequest .plain := fun
  | .text => text
  | .origin => none
  | .departureTime => none
  | .transportMode => none
  | .defaultServiceDurationMinutes => (⟨15, by decide⟩ : {n : Int // 0 ≤ n ∧ n ≤ 240})
  | .city => none
  | .constraints => none
  | .maxCandidatesPerTask => (⟨3, by decide⟩ : {n : Int // 1 ≤ n ∧ n ≤ 5})
  | .taskPoiOverrides | .taskLocationOverrides => ([] : List (String × String))
  | .taskFieldOverrides => ([] : List (String × List (String × Json)))
  | .preferencesAnswers => ([] : List PreferenceAnswer)
  | .humanConfirmations => ⟨[], List.forall_mem_nil _⟩
  | .useLongTermMemory => true

end MapGo.Conversation
