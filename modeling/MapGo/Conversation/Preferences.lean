import MapGo.Conversation.Answers

/-! The preferences of a planning intent: what the rule-based parser reads off the text, what the
answers of the request say, and what the saved preferences of the user add to them. -/
namespace MapGo.Conversation

open MapGo.Route (OptimizationGoal TravelStyle)

inductive PreferenceKey where
  | minimizeDistance | minimizeWalking | minimizeCost | preferHighRating | avoidQueues
  | avoidHiking | optimizationGoal | travelStyle | dietaryRestrictions | preferredCategories
  | preferredEnvironment
  deriving DecidableEq, Repr

namespace PreferenceKey

def all : List PreferenceKey :=
  [minimizeDistance, minimizeWalking, minimizeCost, preferHighRating, avoidQueues, avoidHiking,
    optimizationGoal, travelStyle, dietaryRestrictions, preferredCategories, preferredEnvironment]

def name : PreferenceKey → String
  | minimizeDistance => "minimize_distance"
  | minimizeWalking => "minimize_walking"
  | minimizeCost => "minimize_cost"
  | preferHighRating => "prefer_high_rating"
  | avoidQueues => "avoid_queues"
  | avoidHiking => "avoid_hiking"
  | optimizationGoal => "optimization_goal"
  | travelStyle => "travel_style"
  | dietaryRestrictions => "dietary_restrictions"
  | preferredCategories => "preferred_categories"
  | preferredEnvironment => "preferred_environment"

theorem name_injective {key other : PreferenceKey} (same : key.name = other.name) :
    key = other := by
  cases key <;> cases other <;> first | rfl | exact absurd same (by decide)

def ofName (name : String) : Option PreferenceKey := all.find? fun key => key.name = name

theorem ofName_name (key : PreferenceKey) : ofName key.name = some key := by
  cases key <;> decide

theorem name_ofName {name : String} {key : PreferenceKey} (found : ofName name = some key) :
    key.name = name := by
  have named := List.find?_some found
  exact of_decide_eq_true named

def Value : PreferenceKey → Type
  | optimizationGoal => OptimizationGoal
  | travelStyle => TravelStyle
  | dietaryRestrictions | preferredCategories | preferredEnvironment => List String
  | _ => Bool

instance (key : PreferenceKey) : DecidableEq key.Value := by
  cases key <;> unfold Value <;> infer_instance

end PreferenceKey

/-- `PlanningPreferences`, without the weights. -/
abbrev Preferences := ∀ key : PreferenceKey, key.Value

def defaultPreferences : Preferences
  | .optimizationGoal => OptimizationGoal.balanced
  | .travelStyle => TravelStyle.balanced
  | .dietaryRestrictions | .preferredCategories | .preferredEnvironment => ([] : List String)
  | .minimizeDistance | .minimizeWalking | .minimizeCost | .preferHighRating | .avoidQueues
  | .avoidHiking => false

/-! What the parser reads off the text. -/

def distanceGoalWords : List String := ["路程最短", "距离最短", "少绕路"]

def timeGoalWords : List String := ["最快", "最短时间", "用时最少", "尽快"]

def relaxedWords : List String := ["轻松", "悠闲", "休闲", "慢节奏", "不赶"]

def intensiveWords : List String := ["紧凑", "特种兵", "多安排", "多打卡"]

def minimizeDistanceWords : List String := ["顺路", "路程最短", "距离最短", "少绕路"]

def minimizeWalkingWords : List String := ["少走路", "不想走路"]

def minimizeCostWords : List String := ["便宜", "省钱", "费用低"]

def highRatingWords : List String := ["评分高", "口碑好"]

def avoidHikingWords : List String :=
  ["不想爬山", "不要爬山", "不爬山", "避免爬山", "不想登山", "不要登山", "避免登山"]

def parsedGoal (text : String) : OptimizationGoal :=
  if Text.containsAny text distanceGoalWords then .shortestDistance
  else if Text.containsAny text timeGoalWords then .shortestTime
  else .balanced

def parsedStyle (text : String) : TravelStyle :=
  if Text.containsAny text relaxedWords then .relaxed
  else if Text.containsAny text intensiveWords then .intensive
  else .balanced

/-- The preferences of `RuleBasedIntentParser.parse`. -/
def parsedPreferences (text : String) : Preferences
  | .optimizationGoal => parsedGoal text
  | .travelStyle => parsedStyle text
  | .minimizeDistance => Text.containsAny text minimizeDistanceWords
  | .minimizeWalking =>
      if parsedStyle text = .relaxed then true else Text.containsAny text minimizeWalkingWords
  | .minimizeCost => Text.containsAny text minimizeCostWords
  | .preferHighRating => Text.containsAny text highRatingWords
  | .avoidHiking => Text.containsAny text avoidHikingWords
  | .avoidQueues => false
  | .dietaryRestrictions | .preferredCategories | .preferredEnvironment => ([] : List String)

/-! What the answers say. -/

variable (T : Texts)

/-- `[str(item) for item in values if item]` of a value or a list of values. -/
def answeredTexts (value : Json) : List String :=
  let values := match value with
    | .array items => items
    | value => [value]
  (values.filter Json.truthy).map fun item => match item with
    | .str text => text
    | item => T.str item

def answeredGoal : Json → Option OptimizationGoal
  | .str "balanced" => some .balanced
  | .str "shortest_time" => some .shortestTime
  | .str "shortest_distance" => some .shortestDistance
  | _ => none

def answeredStyle : Json → Option TravelStyle
  | .str "balanced" => some .balanced
  | .str "relaxed" => some .relaxed
  | .str "intensive" => some .intensive
  | _ => none

/-- The value that an answer sets; `none` if it sets nothing. -/
def answered (value : Json) : ∀ key : PreferenceKey, Option key.Value
  | .optimizationGoal => answeredGoal value
  | .travelStyle => answeredStyle value
  | .dietaryRestrictions | .preferredCategories | .preferredEnvironment =>
      some (answeredTexts T value)
  | .minimizeDistance | .minimizeWalking | .minimizeCost | .preferHighRating | .avoidQueues
  | .avoidHiking => some value.truthy

/-- One pass of the loop of `IntentAgent.run` over `preferences_answers`. -/
def setPreference (preferences : Preferences) (name : String) (value : Json) : Preferences :=
  match PreferenceKey.ofName name with
  | some key => match answered T value key with
    | some value => Function.update preferences key value
    | none => preferences
  | none => preferences

/-- The preferences that `IntentAgent.run` computes with the rule-based parser. -/
def intentPreferences (text : String) (answers : Dict) : Preferences :=
  answers.foldl (fun preferences answer => setPreference T preferences answer.1 answer.2)
    (parsedPreferences text)

/-! What the saved preferences add. -/

/-- `RELATED_TEXT_CUES` -/
def relatedTextCues : List (String × List String) :=
  [("minimize_distance", ["距离", "路程", "离得近", "distance"]),
    ("minimize_walking", ["走路", "步行", "少走", "多走", "walking", "walk"]),
    ("minimize_cost", ["省钱", "费用", "预算", "便宜", "cost", "budget"]),
    ("prefer_high_rating", ["评分", "高分", "口碑", "rating"]),
    ("optimization_goal", ["最快", "最短时间", "最短距离", "shortest", "fastest"]),
    ("dietary_restrictions", ["忌口", "素食", "清真", "过敏", "不吃", "diet", "allergy"]),
    ("avoid_queues", ["排队", "人少", "小众", "queue", "crowd"]),
    ("avoid_hiking", ["爬山", "登山", "徒步", "hiking", "mountain"]),
    ("travel_style", ["轻松", "悠闲", "紧凑", "特种兵", "慢节奏", "relaxed", "intensive"]),
    ("preferred_environment", ["安静", "热闹", "室内", "户外", "quiet", "indoor", "outdoor"]),
    ("preferred_categories", ["博物馆", "美术馆", "公园", "景区", "餐厅", "咖啡", "购物", "古镇",
      "建筑", "动物园", "museum", "park", "restaurant"])]

/-- `GENERIC_DISCOVERY_CUES` -/
def genericDiscoveryCues : List String :=
  ["旅游", "旅行", "游玩", "逛逛", "景点推荐", "行程", "去哪", "travel", "trip", "things to do"]

def discoveryOnly : List String := ["preferred_categories", "preferred_environment", "avoid_queues"]

def cues (key : String) : List String := (relatedTextCues.lookup key).getD []

/-- The memory leaves the key alone. -/
def skipped (text : String) (answers : Dict) (key : String) : Bool :=
  key ∈ answers.map Prod.fst || Text.containsAny (T.casefold text) (cues key) ||
    (key ∈ discoveryOnly && !Text.containsAny (T.casefold text) genericDiscoveryCues)

/-- The answers after `apply_long_term_preferences`. -/
def applyLongTermPreferences (text : String) (useLongTermMemory : Bool) (answers saved : Dict) :
    Dict :=
  if useLongTermMemory then
    saved.foldl (fun answers entry =>
      if skipped T text answers entry.1 then answers else answers ++ [entry]) answers
  else answers

/-- The request decides: its answers, then its text, then what was saved. -/
structure Precedence (text : String) (useLongTermMemory : Bool) (answers saved : Dict) : Prop where
  explicit : ∀ key value, answers.lookup (PreferenceKey.name key) = some value →
    intentPreferences T text (applyLongTermPreferences T text useLongTermMemory answers saved) key =
      (answered T value key).getD (parsedPreferences text key)
  spoken : ∀ key, answers.lookup (PreferenceKey.name key) = none →
    parsedPreferences text key ≠ defaultPreferences key →
    intentPreferences T text (applyLongTermPreferences T text useLongTermMemory answers saved) key =
      parsedPreferences text key
  remembered : ∀ key, intentPreferences T text
      (applyLongTermPreferences T text useLongTermMemory answers saved) key ≠
      intentPreferences T text answers key →
    answers.lookup (PreferenceKey.name key) = none ∧
      parsedPreferences text key = defaultPreferences key

/-! The words of the parser and the cues of the memory. -/

/-- The words that make the parser's value another than the default. -/
def parserWords : PreferenceKey → List String
  | .optimizationGoal => distanceGoalWords ++ timeGoalWords
  | .travelStyle => relaxedWords ++ intensiveWords
  | .minimizeDistance => minimizeDistanceWords
  | .minimizeWalking => relaxedWords ++ minimizeWalkingWords
  | .minimizeCost => minimizeCostWords
  | .preferHighRating => highRatingWords
  | .avoidHiking => avoidHikingWords
  | .avoidQueues | .dietaryRestrictions | .preferredCategories | .preferredEnvironment => []

/-- The words of the parser that contain no cue of the memory. -/
def uncoveredWords (key : PreferenceKey) : List String :=
  (parserWords key).filter fun word => !(cues key.name).any (Text.contains word)

example : uncoveredWords .travelStyle = ["休闲", "不赶", "多安排", "多打卡"] := by decide

variable {T : Texts} {text : String} {answers saved : Dict} {key : PreferenceKey}

theorem containsAny_append {parts more : List String} :
    Text.containsAny text (parts ++ more) =
      (Text.containsAny text parts || Text.containsAny text more) :=
  List.any_append

/-- The parser departs from the default on its words, and on no other. -/
theorem parsed_ne_default_iff : parsedPreferences text key ≠ defaultPreferences key ↔
    Text.containsAny text (parserWords key) = true := by
  cases key with
  | optimizationGoal =>
      change parsedGoal text ≠ .balanced ↔ Text.containsAny text (_ ++ _) = true
      rw [containsAny_append, parsedGoal]
      cases Text.containsAny text distanceGoalWords <;>
        cases Text.containsAny text timeGoalWords <;> decide
  | travelStyle =>
      change parsedStyle text ≠ .balanced ↔ Text.containsAny text (_ ++ _) = true
      rw [containsAny_append, parsedStyle]
      cases Text.containsAny text relaxedWords <;>
        cases Text.containsAny text intensiveWords <;> decide
  | minimizeWalking =>
      change (if parsedStyle text = .relaxed then true
        else Text.containsAny text minimizeWalkingWords) ≠ false ↔
          Text.containsAny text (_ ++ _) = true
      rw [containsAny_append, parsedStyle]
      cases Text.containsAny text relaxedWords <;>
        cases Text.containsAny text intensiveWords <;>
          cases Text.containsAny text minimizeWalkingWords <;> decide
  | minimizeDistance | minimizeCost | preferHighRating | avoidHiking => exact Bool.ne_false_iff
  | _ => exact iff_of_false (fun other => other rfl) Bool.false_ne_true

theorem setPreference_self (preferences : Preferences) (value : Json) :
    setPreference T preferences key.name value key =
      (answered T value key).getD (preferences key) := by
  rw [setPreference, PreferenceKey.ofName_name]
  dsimp only
  cases answered T value key with
  | none => rfl
  | some set => exact Function.update_self ..

theorem setPreference_of_ne (preferences : Preferences) {name : String} (value : Json)
    (other : key.name ≠ name) : setPreference T preferences name value key = preferences key := by
  unfold setPreference
  cases found : PreferenceKey.ofName name with
  | none => rfl
  | some named =>
      have different : key ≠ named := by
        rintro rfl
        exact other (PreferenceKey.name_ofName found)
      dsimp only
      cases answered T value named with
      | none => rfl
      | some set => exact Function.update_of_ne different ..

/-- The loop sets each key by its own answer. -/
theorem foldl_setPreference (distinct : (answers.map Prod.fst).Nodup) (preferences : Preferences) :
    answers.foldl (fun preferences answer => setPreference T preferences answer.1 answer.2)
      preferences key =
      ((answers.lookup key.name).bind fun value => answered T value key).getD (preferences key) := by
  induction answers generalizing preferences with
  | nil => rfl
  | cons answer rest ih =>
      obtain ⟨name, value⟩ := answer
      obtain ⟨absent, distinct⟩ := List.nodup_cons.mp distinct
      rw [List.foldl_cons, ih distinct, List.lookup_cons]
      by_cases named : key.name = name
      · subst named
        rw [Dict.lookup_eq_none_iff.mpr absent, setPreference_self, beq_self_eq_true]
        rfl
      · rw [beq_eq_false_iff_ne.mpr named, setPreference_of_ne preferences value named]

theorem intentPreferences_eq (distinct : (answers.map Prod.fst).Nodup) :
    intentPreferences T text answers key =
      ((answers.lookup key.name).bind fun value => answered T value key).getD
        (parsedPreferences text key) :=
  foldl_setPreference distinct _

/-- The memory adds what it does not skip; each saved key is looked at once. -/
theorem foldl_memory (distinct : (saved.map Prod.fst).Nodup) :
    saved.foldl (fun answers entry =>
      if skipped T text answers entry.1 then answers else answers ++ [entry]) answers =
      answers ++ saved.filter fun entry => !skipped T text answers entry.1 := by
  induction saved generalizing answers with
  | nil => simp
  | cons entry rest ih =>
      obtain ⟨absent, distinct⟩ := List.nodup_cons.mp distinct
      rw [List.foldl_cons, List.filter_cons]
      cases skip : skipped T text answers entry.1 with
      | true => exact ih distinct
      | false =>
          have later : rest.filter (fun other => !skipped T text (answers ++ [entry]) other.1) =
              rest.filter fun other => !skipped T text answers other.1 := by
            refine List.filter_congr fun other member => ?_
            have different : other.1 ≠ entry.1 := fun same =>
              absent (same ▸ List.mem_map_of_mem member)
            have keys : other.1 ∈ (answers ++ [entry]).map Prod.fst ↔
                other.1 ∈ answers.map Prod.fst := by
              simp [different]
            simp only [skipped, keys]
          rw [if_neg Bool.false_ne_true, ih distinct, later, List.append_assoc]
          rfl

theorem lookup_filter (keep : String → Bool) {name : String} :
    (saved.filter fun entry => keep entry.1).lookup name =
      if keep name then saved.lookup name else none := by
  induction saved with
  | nil => simp
  | cons entry rest ih =>
      obtain ⟨other, value⟩ := entry
      rw [List.filter_cons, List.lookup_cons]
      by_cases named : name = other
      · subst named
        cases kept : keep name with
        | true => simp
        | false => simpa [kept] using ih
      · cases keep other <;> simp [List.lookup_cons, beq_eq_false_iff_ne.mpr named, ih]

theorem skipped_of_answered {name : String} (answered : name ∈ answers.map Prod.fst) :
    skipped T text answers name = true := by
  rw [skipped, decide_eq_true answered]
  rfl

/-- The answers of the request come first. -/
theorem lookup_applied (distinct : (saved.map Prod.fst).Nodup) {useLongTermMemory : Bool}
    {name : String} :
    (applyLongTermPreferences T text useLongTermMemory answers saved).lookup name =
      (answers.lookup name).or
        (if useLongTermMemory && !skipped T text answers name then saved.lookup name else none) := by
  unfold applyLongTermPreferences
  cases useLongTermMemory with
  | false => simp
  | true =>
      rw [if_pos rfl, foldl_memory distinct, List.lookup_append, Bool.true_and]
      congr 1
      exact lookup_filter fun name => !skipped T text answers name

theorem nodup_applied (distinct : (saved.map Prod.fst).Nodup)
    (answersDistinct : (answers.map Prod.fst).Nodup) {useLongTermMemory : Bool} :
    ((applyLongTermPreferences T text useLongTermMemory answers saved).map Prod.fst).Nodup := by
  unfold applyLongTermPreferences
  cases useLongTermMemory with
  | false => exact answersDistinct
  | true =>
      rw [if_pos rfl, foldl_memory distinct, List.map_append]
      apply List.Nodup.append answersDistinct
      · exact distinct.sublist (List.filter_sublist.map _)
      · intro name member added
        obtain ⟨entry, kept, rfl⟩ := List.mem_map.mp added
        have skips : skipped T text answers entry.1 = true := skipped_of_answered member
        rw [List.mem_filter, skips] at kept
        exact absurd kept.2 Bool.false_ne_true

def isIdeograph (c : Char) : Bool := 0x4E00 ≤ c.toNat && c.toNat ≤ 0x9FFF

/-- Case folding goes character by character and leaves ideographs as they are. -/
def Texts.KeepsIdeographs (T : Texts) : Prop :=
  ∀ text part : String, part.toList.all isIdeograph = true → Text.contains text part = true →
    Text.contains (T.casefold text) part = true

theorem parserWords_ideographs : ∀ word ∈ parserWords key, word.toList.all isIdeograph = true := by
  cases key <;> decide

/-- A word of the parser with a cue in it shows its cue to the memory. -/
theorem uncovered_of_silent (keeps : T.KeepsIdeographs) {word : String}
    (spoken : word ∈ parserWords key) (present : Text.contains text word = true)
    (silent : Text.containsAny (T.casefold text) (cues key.name) = false) :
    word ∈ uncoveredWords key := by
  apply List.mem_filter.mpr
  constructor
  · exact spoken
  · by_contra covered
    rw [Bool.not_eq_true, Bool.not_eq_false'] at covered
    obtain ⟨cue, known, inside⟩ := List.any_eq_true.mp covered
    have inside := of_decide_eq_true inside
    have ideographs : cue.toList.all isIdeograph = true := by
      apply List.all_eq_true.mpr
      intro c member
      exact List.all_eq_true.mp (parserWords_ideographs word spoken) c (inside.subset member)
    have shown : Text.contains text cue = true :=
      decide_eq_true (inside.trans (of_decide_eq_true present))
    have cued := List.any_eq_true.mpr ⟨cue, known, keeps text cue ideographs shown⟩
    exact absurd (silent.symm.trans cued) Bool.false_ne_true

/-- Where the text has a word of the parser and no cue of the memory, the saved value is the one
that the text gives. -/
def Unopposed (T : Texts) (text : String) (answers saved : Dict) : Prop :=
  ∀ key value, saved.lookup (PreferenceKey.name key) = some value →
    answers.lookup key.name = none → Text.containsAny (T.casefold text) (cues key.name) = false →
    (∃ word ∈ uncoveredWords key, Text.contains text word = true) →
    (answered T value key).getD (parsedPreferences text key) = parsedPreferences text key

/-- The computed value, by the order of precedence. -/
theorem applied_eq (distinct : (saved.map Prod.fst).Nodup)
    (answersDistinct : (answers.map Prod.fst).Nodup) (useLongTermMemory : Bool) :
    intentPreferences T text (applyLongTermPreferences T text useLongTermMemory answers saved) key =
      (((answers.lookup key.name).or (if useLongTermMemory && !skipped T text answers key.name then
        saved.lookup key.name else none)).bind fun value => answered T value key).getD
          (parsedPreferences text key) := by
  rw [intentPreferences_eq (nodup_applied distinct answersDistinct), lookup_applied distinct]

/-- A key that the parser may find in the text is no discovery hint. -/
theorem not_discoveryOnly {word : String} (spoken : word ∈ parserWords key) :
    key.name ∉ discoveryOnly := by
  cases key <;> first | decide | contradiction

theorem skipped_eq_cued {word : String} (spoken : word ∈ parserWords key)
    (unanswered : answers.lookup key.name = none) :
    skipped T text answers key.name = Text.containsAny (T.casefold text) (cues key.name) := by
  have absent := Dict.lookup_eq_none_iff.mp unanswered
  simp only [skipped, absent, not_discoveryOnly spoken, decide_false, Bool.false_or,
    Bool.false_and, Bool.or_false]

/-- The request decides before the memory exactly when no saved value is opposed to the text, or
the memory is off. -/
theorem memory_precedence (T : Texts) (keeps : T.KeepsIdeographs) (text : String)
    (useLongTermMemory : Bool) (answers saved : Dict)
    (answersDistinct : (answers.map Prod.fst).Nodup) (distinct : (saved.map Prod.fst).Nodup) :
    Precedence T text useLongTermMemory answers saved ↔
      (useLongTermMemory = true → Unopposed T text answers saved) := by
  constructor
  · rintro precedence rfl key value stored unanswered silent ⟨word, uncovered, present⟩
    have spoken := (List.mem_filter.mp uncovered).1
    have departs := parsed_ne_default_iff.mpr (List.any_eq_true.mpr ⟨word, spoken, present⟩)
    have decided := precedence.spoken key unanswered departs
    rw [applied_eq distinct answersDistinct, unanswered, skipped_eq_cued spoken unanswered, silent,
      stored] at decided
    exact decided
  · intro unopposed
    have spoken (key : PreferenceKey) (unanswered : answers.lookup key.name = none)
        (departs : parsedPreferences text key ≠ defaultPreferences key) :
        intentPreferences T text
          (applyLongTermPreferences T text useLongTermMemory answers saved) key =
          parsedPreferences text key := by
      obtain ⟨word, spoken, present⟩ := List.any_eq_true.mp (parsed_ne_default_iff.mp departs)
      rw [applied_eq distinct answersDistinct, unanswered, skipped_eq_cued spoken unanswered]
      cases useLongTermMemory with
      | false => rfl
      | true =>
          cases silent : Text.containsAny (T.casefold text) (cues key.name) with
          | true => rfl
          | false =>
              cases stored : saved.lookup key.name with
              | none => rfl
              | some value =>
                  have uncovered := uncovered_of_silent keeps spoken present silent
                  exact unopposed rfl key value stored unanswered silent ⟨word, uncovered, present⟩
    constructor
    · intro key value given
      rw [applied_eq distinct answersDistinct, given]
      rfl
    · exact spoken
    · intro key changed
      cases given : answers.lookup key.name with
      | some value =>
          rw [applied_eq distinct answersDistinct, intentPreferences_eq answersDistinct, given]
            at changed
          exact absurd rfl changed
      | none =>
          refine ⟨rfl, ?_⟩
          by_contra departs
          rw [spoken key given departs, intentPreferences_eq answersDistinct, given] at changed
          exact changed rfl

/-- The travel style for a text and a saved travel style. -/
def styleWith (text saved : String) : TravelStyle :=
  intentPreferences plainTexts text
    (applyLongTermPreferences plainTexts text true [] [("travel_style", .str saved)]) .travelStyle

theorem memory_precedence_cued :
    Precedence plainTexts "轻松去博物馆" true [] [("travel_style", .str "intensive")] ∧
      styleWith "轻松去博物馆" "intensive" = .relaxed := by
  refine ⟨(memory_precedence plainTexts (fun _ _ _ present => present) _ true []
    [("travel_style", .str "intensive")] (by decide) (by decide)).mpr ?_, by decide⟩
  intro _ key value stored _ silent _
  cases key with
  | travelStyle => exact absurd silent (by decide)
  | _ => contradiction

/-- A text that asks for leisure in a word that the memory does not know. -/
theorem memory_overrides_text : parsedStyle "休闲去博物馆" = .relaxed ∧
    styleWith "休闲去博物馆" "intensive" = .intensive ∧
    ¬ Precedence plainTexts "休闲去博物馆" true [] [("travel_style", .str "intensive")] := by
  refine ⟨by decide, by decide, fun precedence => ?_⟩
  have decided := precedence.spoken .travelStyle rfl (by decide)
  exact absurd decided (by decide)

end MapGo.Conversation
