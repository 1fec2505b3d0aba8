import MapGo.Conversation.Request

/-! Answers to clarification questions, applied to a stored request and checked with it. A stored
request is kept as the record of its validated fields; what is read back is its dumped form. -/
namespace MapGo.Conversation

/-- Standard functions on texts. -/
structure Texts where
  /-- `str(value)` of a JSON value -/
  str : Json → String
  casefold : String → String

/-- Texts without capitals, and no other values in them. -/
def plainTexts : Texts where
  str _ := ""
  casefold := id

variable (T : Texts)

/-- `_coerce_bool`; `none` is its `ValueError`. -/
def coerceBool : Json → Option Bool
  | .bool value => some value
  | .str value =>
      let normalized := T.casefold (Text.strip value)
      if normalized ∈ ["true", "1", "yes", "y", "accept", "accepted", "continue", "ok"] then
        some true
      else if normalized ∈ ["false", "0", "no", "n", "reject", "rejected", "stop"] then some false
      else none
  | _ => none

/-- `data.setdefault(key, {})` of a dictionary that is to be changed; `none` for another value. -/
def child (d : Dict) (key : String) : Option Dict :=
  match d.lookup key with
  | some value => value.entries
  | none => some []

/-- The dictionary under a key, or an empty one in place of anything else. -/
def childOrEmpty (d : Dict) (key : String) : Dict := (child d key).getD []

/-- The `constraints` entry of `_ensure_hard_constraints`. -/
def ensureHardConstraints (requestData : Dict) : Dict :=
  let constraints : Dict := match requestData.lookup "constraints" with
    | some (.object constraints) => constraints
    | _ => [("hard", .object []), ("uncertain", .array [])]
  (constraints.put "hard" (.object (childOrEmpty constraints "hard"))).setdefault
    "uncertain" (.array [])

/-- A change of the dictionary that `_ensure_hard_constraints` returns. -/
def changeHard (requestData : Dict) (change : Dict → Dict) : Dict :=
  let constraints := ensureHardConstraints requestData
  requestData.put "constraints"
    (.object (constraints.put "hard" (.object (change (childOrEmpty constraints "hard")))))

/-- `f"{request_data.get('text', '')}{phrase}"` -/
def appendText (requestData : Dict) (phrase : String) : Dict :=
  let text := match requestData.lookup "text" with
    | some (.str text) => text
    | some value => T.str value
    | none => ""
  requestData.put "text" (.str (text ++ phrase))

/-- One entry of the dictionary under a key. -/
def putUnder (requestData : Dict) (key entry : String) (value : Json) : Option Dict :=
  (child requestData key).map fun entries =>
    requestData.put key (.object (entries.put entry value))

/-- A rejected walking distance. -/
def rejectWalkingDistance (requestData : Dict) : Option Dict := do
  let requestData ← putUnder requestData "preferences_answers" "minimize_walking" (.bool true)
  let requestData ← putUnder requestData "preferences_answers" "travel_style" (.str "relaxed")
  let requestData := changeHard requestData fun hard =>
    hard.setdefault "max_walking_meters" (.number 6000)
  some (appendText T requestData "；用户不接受长距离步行，请少走路")

/-- A rejected cost. -/
def rejectEstimatedCost (requestData : Dict) : Option Dict := do
  let requestData ← putUnder requestData "preferences_answers" "minimize_cost" (.bool true)
  let requestData := changeHard requestData fun hard =>
    hard.setdefault "max_total_cost_yuan" (.number 800)
  some (appendText T requestData "；用户不接受高费用，请省钱优先")

def applyConfirmation (requestData : Dict) (field : String) (value : Json) : Option Dict := do
  let key := Text.afterFirst '.' field
  if key ∉ ["walking_distance", "estimated_cost"] then none
  else
    let accepted ← coerceBool T value
    let requestData ← putUnder requestData "human_confirmations" key (.bool accepted)
    if accepted then some requestData
    else if key = "walking_distance" then rejectWalkingDistance T requestData
    else rejectEstimatedCost T requestData

/-- The index of a field `tasks.<index>.…`, as the key of an override. -/
def taskIndex (field : String) : Option String :=
  match Text.split '.' field with
  | _ :: index :: _ => (Text.toInt index).map toString
  | _ => none

def applyPreference (requestData : Dict) (field : String) (value : Json) : Option Dict := do
  let preference := Text.afterFirst '.' field
  let requestData ← putUnder requestData "preferences_answers" preference value
  if preference = "minimize_distance" ∧ value.truthy then
    some (appendText T requestData "；尽量路程短一点")
  else if preference = "minimize_walking" ∧ value.truthy then
    some (appendText T requestData "；尽量少走路")
  else if preference = "minimize_cost" ∧ value.truthy then
    some (appendText T requestData "；尽量省钱")
  else if preference = "dietary_restrictions" then
    some (appendText T requestData ("；餐饮忌口:" ++ match value with
      | .str value => value
      | value => T.str value))
  else some requestData

/-- `apply_clarification_answer`; `none` is an exception. -/
def applyClarificationAnswer (requestData : Dict) (field : String) (value : Json) : Option Dict :=
  if Text.hasPrefix field "human_confirmation." then applyConfirmation T requestData field value
  else if field ∈ ["origin", "departure_time", "transport_mode"] then
    some (requestData.put field value)
  else if Text.hasPrefix field "tasks." ∧ Text.hasSuffix field ".location" then
    (taskIndex field).bind fun index => putUnder requestData "task_location_overrides" index value
  else if Text.hasPrefix field "tasks." ∧ Text.hasSuffix field ".selected_poi_id" then
    (taskIndex field).bind fun index => putUnder requestData "task_poi_overrides" index value
  else if Text.hasPrefix field "tasks." ∧ Text.contains field ".appointment_time" then do
    let index ← taskIndex field
    let overrides ← child requestData "task_field_overrides"
    let overrides ← putUnder overrides index "appointment_time" value
    some (requestData.put "task_field_overrides" (.object overrides))
  else if Text.hasPrefix field "preferences." then applyPreference T requestData field value
  else if Text.hasPrefix field "constraints.hard.party." then
    some (changeHard requestData fun hard =>
      hard.put "party" (.object ((childOrEmpty hard "party").put (Text.afterLast '.' field) value)))
  else if Text.hasPrefix field "constraints.hard." then
    some (changeHard requestData fun hard =>
      hard.put (Text.withoutPrefix field "constraints.hard.") value)
  else none

/-- The fields that `continue_planning_conversation` lets through. -/
def supportedField (field : String) : Bool :=
  field ∈ ["origin", "departure_time", "transport_mode"] ||
    ["constraints.hard.", "preferences.", "tasks."].any (Text.hasPrefix field)

def applyAnswers (requestData : Dict) (answers : Dict) : Option Dict :=
  answers.foldlM (fun data answer => applyClarificationAnswer T data answer.1 answer.2) requestData

variable (L : Leaves)

/-- The request of `continue_planning_conversation` for a stored one; `none` is an exception. -/
def updatedRequest (request : PlanRequest L) (answers : Dict) : Option (PlanRequest L) :=
  if answers.all fun answer => supportedField answer.1 then
    (applyAnswers T ((aiPlanRequest L).entries request) answers).bind fun requestData =>
      (aiPlanRequest L).validate (.object (requestData.filter fun entry =>
        entry.1 ∈ (aiPlanRequest L).fields.map (aiPlanRequest L).key))
  else none

end MapGo.Conversation
