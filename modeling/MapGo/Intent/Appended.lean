import MapGo.Intent.Totality
import MapGo.Regex.Append

/-! What the phrases that answers append to a request do to its tasks. A phrase begins with a
border of actions, so the parser reads it behind the actions of the text; what changes is the end
of the text, the list of words that it may have been, and the phrases that are read as places. -/
namespace MapGo.Intent

open Postcondition Regex
open MapGo.Conversation (Leaves Texts plainTexts coerceBool applyConfirmation applyPreference
  applyClarificationAnswer applyAnswers appendText putUnder changeHard lookup_putUnder
  rejectWalkingDistance rejectEstimatedCost)

/-! The appended phrases. -/

/-- `f"餐饮忌口:{value}"` -/
def dietaryText (T : Texts) (value : Json) : String :=
  "；餐饮忌口:" ++ match value with
    | .str value => value
    | value => T.str value

/-- What an answer appends to the text. -/
def appended (T : Texts) (field : String) (value : Json) : String :=
  if Text.hasPrefix field "human_confirmation." then
    if coerceBool T value = some false then
      if Text.afterFirst '.' field = "walking_distance" then "；用户不接受长距离步行，请少走路"
      else "；用户不接受高费用，请省钱优先"
    else ""
  else
    let preference := Text.afterFirst '.' field
    if preference = "minimize_distance" ∧ value.truthy then "；尽量路程短一点"
    else if preference = "minimize_walking" ∧ value.truthy then "；尽量少走路"
    else if preference = "minimize_cost" ∧ value.truthy then "；尽量省钱"
    else if preference = "dietary_restrictions" then dietaryText T value
    else ""

/-- Preference and human-confirmation answers. -/
def asksWish (field : String) : Bool :=
  Text.hasPrefix field "preferences." || Text.hasPrefix field "human_confirmation."

def dietary (field : String) : Bool :=
  !Text.hasPrefix field "human_confirmation." &&
    decide (Text.afterFirst '.' field = "dietary_restrictions")

section answers
variable {T : Texts} {data updated : Dict} {field text : String} {value : Json} {answers : Dict}

theorem lookup_appendText {phrase : String} (given : data.lookup "text" = some (.str text)) :
    (appendText T data phrase).lookup "text" = some (.str (text ++ phrase)) := by
  rw [appendText, given]
  exact Dict.lookup_put_self

theorem applyPreference_text (given : data.lookup "text" = some (.str text))
    (starts : Text.hasPrefix field "human_confirmation." = false)
    (applied : applyPreference T data field value = some updated) :
    updated.lookup "text" = some (.str (text ++ appended T field value)) := by
  obtain ⟨middle, put, applied⟩ := Option.bind_eq_some_iff.mp applied
  have kept : middle.lookup "text" = some (.str text) :=
    (lookup_putUnder (by decide) put).trans given
  simp only [appended, starts, Bool.false_eq_true, ↓reduceIte]
  split at applied
  · rename_i asked
    obtain rfl := Option.some.inj applied
    rw [if_pos asked]
    exact lookup_appendText kept
  · rename_i other
    rw [if_neg other]
    split at applied
    · rename_i asked
      obtain rfl := Option.some.inj applied
      rw [if_pos asked]
      exact lookup_appendText kept
    · rename_i other
      rw [if_neg other]
      split at applied
      · rename_i asked
        obtain rfl := Option.some.inj applied
        rw [if_pos asked]
        exact lookup_appendText kept
      · rename_i other
        rw [if_neg other]
        split at applied
        · rename_i asked
          obtain rfl := Option.some.inj applied
          rw [if_pos asked]
          exact lookup_appendText kept
        · rename_i other
          obtain rfl := Option.some.inj applied
          rw [if_neg other, String.append_empty]
          exact kept

theorem applyConfirmation_text (given : data.lookup "text" = some (.str text))
    (starts : Text.hasPrefix field "human_confirmation." = true)
    (applied : applyConfirmation T data field value = some updated) :
    updated.lookup "text" = some (.str (text ++ appended T field value)) := by
  unfold applyConfirmation at applied
  dsimp only at applied
  split at applied
  · contradiction
  · obtain ⟨accepted, coerced, applied⟩ := Option.bind_eq_some_iff.mp applied
    obtain ⟨confirmed, put, answered⟩ := Option.bind_eq_some_iff.mp applied
    have kept : confirmed.lookup "text" = some (.str text) :=
      (lookup_putUnder (by decide) put).trans given
    simp only [appended, starts, coerced, ↓reduceIte, Option.some.injEq]
    split at answered
    · rename_i accepts
      obtain rfl := Option.some.inj answered
      rw [accepts, if_neg Bool.true_eq_false.mp, String.append_empty]
      exact kept
    · rename_i rejects
      rw [if_pos (Bool.eq_false_of_not_eq_true rejects)]
      split at answered
      · rename_i walking
        rw [if_pos walking]
        obtain ⟨first, put_first, answered⟩ := Option.bind_eq_some_iff.mp answered
        obtain ⟨second, put_second, answered⟩ := Option.bind_eq_some_iff.mp answered
        obtain rfl := Option.some.inj answered
        refine lookup_appendText ((Dict.lookup_put_of_ne (by decide)).trans ?_)
        exact (lookup_putUnder (by decide) put_second).trans
          ((lookup_putUnder (by decide) put_first).trans kept)
      · rename_i cost
        rw [if_neg cost]
        obtain ⟨first, put_first, answered⟩ := Option.bind_eq_some_iff.mp answered
        obtain rfl := Option.some.inj answered
        refine lookup_appendText ((Dict.lookup_put_of_ne (by decide)).trans ?_)
        exact (lookup_putUnder (by decide) put_first).trans kept

/-- One answer. -/
theorem applyClarificationAnswer_text (asked : asksWish field = true)
    (given : data.lookup "text" = some (.str text))
    (applied : applyClarificationAnswer T data field value = some updated) :
    updated.lookup "text" = some (.str (text ++ appended T field value)) := by
  unfold applyClarificationAnswer at applied
  cases starts : Text.hasPrefix field "human_confirmation." with
  | true =>
      rw [if_pos starts] at applied
      exact applyConfirmation_text given starts applied
  | false =>
      have preference : Text.hasPrefix field "preferences." = true := by
        simpa [asksWish, starts] using asked
      have tasks : Text.hasPrefix field "tasks." = false :=
        Text.hasPrefix_of_apart preference (by decide)
      have other : field ∉ ["origin", "departure_time", "transport_mode"] := by
        intro member
        simp only [List.mem_cons, List.not_mem_nil, or_false] at member
        rcases member with rfl | rfl | rfl <;> exact absurd preference (by decide)
      simp only [starts, other, tasks, preference, Bool.false_eq_true, false_and, ↓reduceIte]
        at applied
      exact applyPreference_text given starts applied

/-- All answers. -/
theorem applyAnswers_text (asked : ∀ answer ∈ answers, asksWish answer.1 = true)
    (given : data.lookup "text" = some (.str text))
    (applied : applyAnswers T data answers = some updated) :
    updated.lookup "text" = some (.str (text ++
      String.join (answers.map fun answer => appended T answer.1 answer.2))) := by
  induction answers generalizing data text with
  | nil =>
      obtain rfl := Option.some.inj applied
      rw [List.map_nil, String.join_nil, String.append_empty]
      exact given
  | cons answer rest ih =>
      rw [applyAnswers, List.foldlM_cons] at applied
      obtain ⟨middle, first, applied⟩ := Option.bind_eq_some_iff.mp applied
      have written := applyClarificationAnswer_text (asked answer List.mem_cons_self) given first
      have later := ih (fun other member => asked other (List.mem_cons_of_mem _ member)) written
        applied
      rw [later, List.map_cons, String.join_cons, String.append_assoc]

end answers

/-! The places of a text. -/

/-- The place of an action, where it names one. -/
def placeOf (piece : List Char) : Option (List Char) :=
  (describe piece).bind fun description =>
    if locate description = [] then none else some (locate description)

/-- The location names of the tasks of a text. -/
def taskPlaces (text : List Char) : List (List Char) :=
  let places := (actions text).filterMap placeOf
  if places = [] then [text] else places.take maxPlanningTasks

/-- The text is parsed to tasks with the locations of those of an intent. -/
def KeepsTasks {L : Leaves} (intent : ParsedIntent L) (today : Int) (text : String) : Prop :=
  ∃ later, ruleParse L today text = .ok later ∧
    later.tasks.map ParsedTask.locationName = intent.tasks.map ParsedTask.locationName

section parsing
variable {L : Leaves} {today day : Int} {text later : String} {context piece : List Char}
  {departure : Option Moment} {intent : ParsedIntent L}

theorem planningTask_location {description location : List Char} {service : Nat}
    {deadline : Option Moment} {task : ParsedTask}
    (planned : planningTask description location service deadline = .ok task) :
    task.locationName = String.ofList location := by
  unfold planningTask at planned
  split at planned
  · rw [← Except.ok.inj planned]
  · contradiction

theorem taskOf_location {task : Option ParsedTask}
    (ran : taskOf today context departure piece = .ok task) :
    task.map ParsedTask.locationName = (placeOf piece).map String.ofList := by
  unfold taskOf at ran
  unfold placeOf
  cases described : describe piece with
  | none =>
      rw [described] at ran
      rw [← Except.ok.inj ran]
      rfl
  | some description =>
      rw [described] at ran
      obtain ⟨deadline, -, ran⟩ := bind_eq_ok.mp ran
      rw [Option.bind_some]
      split at ran
      · rename_i absent
        rw [if_pos absent, ← Except.ok.inj ran]
        rfl
      · rename_i named
        obtain ⟨planned, made, ran⟩ := bind_eq_ok.mp ran
        rw [if_neg named, ← Except.ok.inj ran, Option.map_some, Option.map_some,
          planningTask_location made]

/-- The locations of the tasks that the loop finds. -/
theorem mapM_location {pieces : List (List Char)} {found : List (Option ParsedTask)}
    (ran : pieces.mapM (taskOf today context departure) = .ok found) :
    (found.filterMap id).map ParsedTask.locationName =
      (pieces.filterMap placeOf).map String.ofList := by
  have results := mapM_ok_forall₂ ran
  clear ran
  induction results with
  | nil => rfl
  | @cons piece task pieces found first later ih =>
      have located := taskOf_location first
      cases place : placeOf piece with
      | none =>
          rw [place] at located
          obtain rfl := Option.map_eq_none_iff.mp located
          rw [List.filterMap_cons_none rfl, List.filterMap_cons_none place, ih]
      | some location =>
          rw [place] at located
          obtain ⟨made, rfl, named⟩ := Option.map_eq_some_iff.mp located
          have kept : id (some made) = some made := rfl
          rw [List.filterMap_cons_some kept, List.filterMap_cons_some place, List.map_cons,
            List.map_cons, named, ih]

theorem planningIntent_tasks {origin : Option String} {tasks : List ParsedTask}
    (made : planningIntent L text origin departure tasks = .ok intent) : intent.tasks = tasks := by
  unfold planningIntent at made
  split at made
  · rw [← Except.ok.inj made]
  · contradiction

theorem orWholeText_location {tasks all : List ParsedTask} {found : List (List Char)}
    (located : tasks.map ParsedTask.locationName = found.map String.ofList)
    (whole : orWholeText context tasks = .ok all) :
    all.map ParsedTask.locationName =
      (if found = [] then [context] else found).map String.ofList := by
  unfold orWholeText at whole
  split at whole
  · rename_i empty
    have none : found = [] := by
      rw [empty, List.map_nil] at located
      exact List.map_eq_nil_iff.mp located.symm
    rw [if_pos none]
    cases planned : planningTask context context 0 Option.none with
    | error =>
        rw [planned] at whole
        contradiction
    | ok task =>
        rw [planned] at whole
        rw [← Except.ok.inj whole, List.map_singleton, planningTask_location planned,
          List.map_singleton]
  · rename_i occupied
    have some : found ≠ [] := by
      rintro rfl
      exact occupied (List.map_eq_nil_iff.mp located)
    rw [if_neg some, ← Except.ok.inj whole, located]

theorem ruleParse_places (parsed : ruleParse L today text = .ok intent) :
    intent.tasks.map ParsedTask.locationName = (taskPlaces text.toList).map String.ofList := by
  unfold ruleParse at parsed
  obtain ⟨departure, -, parsed⟩ := bind_eq_ok.mp parsed
  obtain ⟨found, ran, parsed⟩ := bind_eq_ok.mp parsed
  obtain ⟨tasks, whole, parsed⟩ := bind_eq_ok.mp parsed
  have located := orWholeText_location (mapM_location ran) whole
  rw [planningIntent_tasks parsed, List.map_take, located, ← List.map_take, taskPlaces]
  generalize (actions text.toList).filterMap placeOf = places
  by_cases none : places = []
  · rw [if_pos none, if_pos none]
    rfl
  · rw [if_neg none, if_neg none]

theorem keepsTasks_iff (parsed : ruleParse L today text = .ok intent) :
    KeepsTasks intent day later ↔
      Parseable later.toList ∧ taskPlaces later.toList = taskPlaces text.toList := by
  have injective : Function.Injective (List.map String.ofList) :=
    List.map_injective_iff.mpr fun _ _ => String.ofList_injective
  constructor
  · rintro ⟨again, parsedAgain, same⟩
    refine ⟨ruleParse_ok_iff.mp ⟨again, parsedAgain⟩, injective ?_⟩
    rw [← ruleParse_places parsedAgain, ← ruleParse_places parsed, same]
  · rintro ⟨parseable, same⟩
    obtain ⟨again, parsedAgain⟩ := (@ruleParse_ok_iff L day later).mpr parseable
    refine ⟨again, parsedAgain, ?_⟩
    rw [ruleParse_places parsedAgain, ruleParse_places parsed, same]

end parsing

/-! The actions of a text that goes on behind a border. -/

/-- The actions between the borders of a text. -/
def segments (before text : List Char) : List (List Char) :=
  ((actionSplit.pieces before text).map stripMarks).filter (· ≠ [])

/-- One action of several compact words is a list of places. -/
def orListed (pieces : List (List Char)) : List (List Char) :=
  match pieces with
  | [piece] =>
      let parts := ((plus space).split piece).filter (· ≠ [])
      if 2 ≤ parts.length ∧ parts.length ≤ maxPlanningTasks ∧ parts.all compactName then parts
      else pieces
  | _ => pieces

/-- The actions of a text when more comes behind it. -/
def ownActions (text : List Char) : List (List Char) :=
  segments [] (listMarker.sub ['\n'] ((preamble.sub [] text).dropWhile Text.isSpace))

/-- The actions behind a border. -/
def furtherActions (more : List Char) : List (List Char) :=
  let more := more.rdropWhile Text.isSpace
  segments ['；'] (listMarker.subFrom ['\n'] more.length ['；'] more)

section decomposition
variable {before other third text more read : List Char}

theorem splitActions_eq (text : List Char) :
    splitActions text = orListed (segments [] (listMarker.sub ['\n'] (Text.stripped text))) := by
  have nonempty (parts : List (List Char)) :
      ((parts.filter (· ≠ [])).map stripMarks).filter (· ≠ []) =
        (parts.map stripMarks).filter (· ≠ []) := by
    induction parts with
    | nil => rfl
    | cons part parts ih =>
        cases part with
        | nil => exact ih
        | cons c rest =>
            rw [List.filter_cons_of_pos (by simp), List.map_cons, List.map_cons, List.filter_cons,
              List.filter_cons, ih]
  unfold splitActions segments
  rw [Regex.pieces, nonempty]
  rfl

theorem actionSplit_separates :
    Separates (fun c => "，,；;。\n".toList.contains c) actionSplit where
  shape := by
    refine ⟨_, rfl, fun c separator => ?_⟩
    have listed : c ∈ ['，', ',', '；', ';', '。', '\n'] := List.contains_iff_mem.mp separator
    simp only [List.mem_cons, List.not_mem_nil, or_false] at listed
    rcases listed with rfl | rfl | rfl | rfl | rfl | rfl <;> decide
  blind := by decide
  consuming := by decide

theorem segments_append (start : other = [] ↔ before = []) (later : third ≠ []) :
    segments other (text ++ '；' :: more) = segments before text ++ segments third more := by
  rw [segments, pieces_append actionSplit_separates (by decide) start later, List.map_append,
    List.filter_append]
  rfl

theorem listMarker_append (text more : List Char) :
    listMarker.sub ['\n'] (text ++ '；' :: more) =
      listMarker.sub ['\n'] text ++ '；' :: listMarker.subFrom ['\n'] more.length ['；'] more := by
  rw [Regex.sub, Regex.sub]
  exact subFrom_border (by decide) (nil_not_mem (by decide)) (by decide +kernel) Iff.rfl
    (List.cons_ne_nil _ _)

/-- The preamble ends with `出发`, commas and white space. -/
theorem preamble_reads (spelled : read ∈ preamble.language) :
    ∃ first tail, read = first ++ ("出发".toList ++ tail) ∧ '；' ∉ tail := by
  obtain ⟨start, nothing, line, onward, rfl⟩ := Language.mem_mul.mp spelled
  obtain rfl : start = [] := nothing
  obtain ⟨first, -, rest, marked, rfl⟩ := Language.mem_mul.mp onward
  obtain ⟨left, marker, tail, last, rfl⟩ := Language.mem_mul.mp marked
  obtain rfl := eq_of_mem_word marker
  refine ⟨first, tail, rfl, fun member => ?_⟩
  have accepted := accepting_of_mem last member
  exact absurd accepted (by decide)

theorem preamble_append (absent : ¬ "出发".toList <:+: more) :
    preamble.sub [] (text ++ '；' :: more) = preamble.sub [] text ++ '；' :: more := by
  have apart : ¬ "出发".toList <:+: '；' :: more := by
    intro inside
    rcases List.infix_cons_iff.mp inside with first | later
    · exact absurd (List.cons_prefix_cons.mp first).1 (by decide)
    · exact absent later
  have stays : preamble.Stays text ('；' :: more) := by
    intro first rest _ _ occupied inside spelled
    obtain ⟨head, tail, same, silent⟩ := preamble_reads spelled
    obtain ⟨c, others, rfl⟩ := List.exists_cons_of_ne_nil occupied
    obtain rfl : c = '；' := (List.cons_prefix_cons.mp inside).1
    rcases List.append_eq_append_iff.mp same with ⟨middle, rfl, rest⟩ | ⟨middle, rfl, rest⟩
    · exact apart (List.IsInfix.trans ⟨middle, tail, by rw [rest, List.append_assoc]⟩
        inside.isInfix)
    · have member : '；' ∈ "出发".toList ++ tail := rest ▸ List.mem_append_right _ List.mem_cons_self
      rcases List.mem_append.mp member with member | member
      · exact absurd member (by decide)
      · exact silent member
  have unread (before : List Char) : preamble.find before ('；' :: more) = none := by
    refine find_eq_none fun read spelled inside => ?_
    obtain ⟨head, tail, rfl, -⟩ := preamble_reads spelled
    exact apart (List.IsInfix.trans ⟨head, tail, by rw [List.append_assoc]⟩ inside)
  rw [Regex.sub, Regex.sub, subFrom_append (by decide) (nil_not_mem (by decide)) stays Iff.rfl
    le_rfl le_rfl le_rfl, subFrom_of_find_none (unread _)]

theorem dropWhile_border {p : Char → Bool} {c : Char} (stops : p c = false) :
    (text ++ c :: more).dropWhile p = text.dropWhile p ++ c :: more := by
  rw [List.dropWhile_append]
  split
  · rename_i empty
    rw [List.isEmpty_iff.mp empty, List.dropWhile_cons_of_neg (by simp [stops]), List.nil_append]
  · rfl

theorem stripped_append (text more : List Char) : Text.stripped (text ++ '；' :: more) =
    text.dropWhile Text.isSpace ++ '；' :: more.rdropWhile Text.isSpace := by
  have stops : Text.isSpace '；' = false := by decide
  rw [Text.stripped, dropWhile_border stops, List.reverse_append, List.reverse_cons,
    List.append_assoc, List.singleton_append, dropWhile_border stops, List.reverse_append,
    List.reverse_cons, List.reverse_reverse, List.append_assoc]
  rfl

/-- The actions of a text and of what follows it are read one after the other. -/
theorem actions_append (absent : ¬ "出发".toList <:+: more) :
    actions (text ++ '；' :: more) = orListed (ownActions text ++ furtherActions more) := by
  rw [actions, preamble_append absent, splitActions_eq, stripped_append, listMarker_append]
  exact congrArg orListed (segments_append Iff.rfl (List.cons_ne_nil _ _))

theorem orListed_of_several {pieces : List (List Char)} (several : 2 ≤ pieces.length) :
    orListed pieces = pieces := by
  match pieces with
  | _ :: _ :: _ => rfl

end decomposition

/-! The phrases without a value in them. -/

/-- What stands behind the border in the phrases of the answers. -/
def phrases (T : Texts) (answers : Dict) : List (List Char) :=
  answers.filterMap fun answer => (appended T answer.1 answer.2).toList.tail?

/-- The phrases of answers that are not about the diet. -/
def wishes : List (List Char) :=
  ["用户不接受长距离步行，请少走路", "用户不接受高费用，请省钱优先", "尽量路程短一点", "尽量少走路",
    "尽量省钱"].map String.toList

/-- The phrases that the parser passes over. -/
def silentWishes : List (List Char) := ["尽量少走路", "尽量省钱"].map String.toList

section phrases
variable {T : Texts} {field : String} {value : Json} {answers : Dict} {text more read : List Char}
  {first phrase : List Char} {rest : List (List Char)}

theorem appended_cases (T : Texts) (field : String) (value : Json) : appended T field value = "" ∨
    ∃ phrase, (appended T field value).toList = '；' :: phrase ∧
      (dietary field = false → phrase ∈ wishes) := by
  have wish {text : String} {phrase : List Char} (same : text.toList = '；' :: phrase)
      (listed : phrase ∈ wishes) : text = "" ∨ ∃ phrase, text.toList = '；' :: phrase ∧
        (dietary field = false → phrase ∈ wishes) := .inr ⟨phrase, same, fun _ => listed⟩
  unfold appended
  split
  · split
    · split
      · exact wish rfl (by decide)
      · exact wish rfl (by decide)
    · exact .inl rfl
  · rename_i preference
    dsimp only
    split
    · exact wish rfl (by decide)
    · split
      · exact wish rfl (by decide)
      · split
        · exact wish rfl (by decide)
        · split
          · rename_i asked
            refine .inr ⟨_, String.toList_append, fun other => ?_⟩
            have same : dietary field = true := by simp [dietary, preference, asked]
            rw [same] at other
            contradiction
          · exact .inl rfl

theorem join_appended (T : Texts) (answers : Dict) :
    (String.join (answers.map fun answer => appended T answer.1 answer.2)).toList =
      (phrases T answers).flatMap fun phrase => '；' :: phrase := by
  induction answers with
  | nil => rfl
  | cons answer rest ih =>
      rw [List.map_cons, String.join_cons, String.toList_append, ih, phrases, phrases,
        List.filterMap_cons]
      rcases appended_cases T answer.1 answer.2 with
        nothing | ⟨phrase, same, -⟩
      · simp only [nothing]
        rfl
      · simp only [same]
        rfl

theorem phrases_wishes (other : ∀ answer ∈ answers, dietary answer.1 = false) :
    ∀ phrase ∈ phrases T answers, phrase ∈ wishes := by
  intro phrase member
  obtain ⟨answer, given, tail⟩ := List.mem_filterMap.mp member
  rcases appended_cases T answer.1 answer.2 with
    nothing | ⟨phrase', same, listed⟩
  · rw [nothing] at tail
    contradiction
  · rw [same] at tail
    obtain rfl := Option.some.inj tail
    exact listed (other answer given)

theorem listMarker_reads (spelled : read ∈ listMarker.language) :
    ∃ c ∈ ".、)）".toList, c ∈ read := by
  obtain ⟨start, -, line, onward, rfl⟩ := Language.mem_mul.mp spelled
  obtain ⟨blank, -, numbered, number, rfl⟩ := Language.mem_mul.mp onward
  obtain ⟨digits, -, dotted, later, rfl⟩ := Language.mem_mul.mp number
  obtain ⟨mark, ⟨c, accepted, rfl⟩, blanks, -, rfl⟩ := Language.mem_mul.mp later
  exact ⟨c, List.contains_iff_mem.mp accepted, by simp⟩

/-- No character of a wish means anything at its ends, in a list, or for origin and departure. -/
theorem wishes_plain {c : Char} (listed : phrase ∈ wishes) (member : c ∈ phrase) :
    Text.isSpace c = false ∧ c ∉ ".、)）从出".toList := by
  have plain : (wishes.all fun phrase => phrase.all fun c =>
      !Text.isSpace c && !".、)）从出".toList.contains c) = true := by decide +kernel
  have here := List.all_eq_true.mp (List.all_eq_true.mp plain phrase listed) c member
  simpa using here

theorem wish_chars (listed : ∀ phrase ∈ first :: rest, phrase ∈ wishes) :
    ∀ c ∈ first ++ rest.flatMap (fun phrase => '；' :: phrase),
      Text.isSpace c = false ∧ c ∉ ".、)）从出".toList := by
  intro c member
  rcases List.mem_append.mp member with member | member
  · exact wishes_plain (listed first List.mem_cons_self) member
  · obtain ⟨phrase, given, member⟩ := List.mem_flatMap.mp member
    rcases List.mem_cons.mp member with rfl | member
    · decide
    · exact wishes_plain (listed phrase (List.mem_cons_of_mem _ given)) member

theorem segments_flatMap :
    segments ['；'] (first ++ rest.flatMap fun phrase => '；' :: phrase) =
      (first :: rest).flatMap (segments ['；']) := by
  induction rest generalizing first with
  | nil => simp
  | cons second rest ih =>
      rw [List.flatMap_cons, List.cons_append,
        segments_append Iff.rfl (List.cons_ne_nil '；' []), ih]
      rfl

theorem furtherActions_wishes (listed : ∀ phrase ∈ first :: rest, phrase ∈ wishes) :
    furtherActions (first ++ rest.flatMap fun phrase => '；' :: phrase) =
      (first :: rest).flatMap (segments ['；']) := by
  have chars := wish_chars listed
  generalize whole : first ++ rest.flatMap (fun phrase => '；' :: phrase) = more at chars
  have trimmed : more.rdropWhile Text.isSpace = more := by
    refine List.rdropWhile_eq_self_iff.mpr fun occupied => ?_
    rw [(chars _ (List.getLast_mem occupied)).1]
    exact Bool.false_ne_true
  have unmarked (before : List Char) : listMarker.find before more = none := by
    refine find_eq_none fun read spelled inside => ?_
    obtain ⟨c, mark, member⟩ := listMarker_reads spelled
    refine (chars c (inside.subset member)).2 ?_
    exact List.mem_append_left "从出".toList mark
  rw [furtherActions]
  simp only [trimmed]
  rw [subFrom_of_find_none (unmarked _), ← whole]
  exact segments_flatMap

/-- What the parser makes of a phrase behind a border. -/
structure ReadAsWish (phrase : List Char) : Prop where
  occupied : segments ['；'] phrase ≠ []
  silent : (segments ['；'] phrase).filterMap placeOf = [] ↔ phrase ∈ silentWishes
  single : ∀ piece ∈ segments ['；'] phrase, orListed [piece] = [piece]
  places : ∀ piece ∈ segments ['；'] phrase, ∀ place ∈ placeOf piece,
    (actions place).filterMap placeOf ≠ []
  written : ∀ piece ∈ segments ['；'] phrase, ∀ description ∈ describe piece, Written description

/-- The actions that the wishes are read as. -/
def wishActions : List (List Char) :=
  ["用户不接受长距离步行", "请少走路", "用户不接受高费用", "请省钱优", "尽量路程短一点", "尽量少走路",
    "尽量省钱"].map String.toList

/-- One by one, the actions of the wishes are no lists, are places again where they are places, and
carry no time. -/
theorem wishActions_read {piece : List Char} (listed : piece ∈ wishActions) :
    orListed [piece] = [piece] ∧
      (∀ place ∈ placeOf piece, (actions place).filterMap placeOf ≠ []) ∧
      ∀ description ∈ describe piece, Written description := by
  have single : (wishActions.all fun piece => orListed [piece] == [piece]) = true := by
    decide +kernel
  have places : (wishActions.all fun piece => (placeOf piece).all fun place =>
      !((actions place).filterMap placeOf).isEmpty) = true := by decide +kernel
  have written : (wishActions.all fun piece => (describe piece).all fun description =>
      (capture deadlinePattern 1 description).isNone && decide (description.length ≤ 300) &&
        decide ((locate description).length ≤ 200)) = true := by decide +kernel
  refine ⟨beq_iff_eq.mp (List.all_eq_true.mp single piece listed), fun place named => ?_,
    fun description described => ?_⟩
  · have read := List.all_eq_true.mp places piece listed
    rw [Option.mem_def.mp named] at read
    simpa using read
  · have read := List.all_eq_true.mp written piece listed
    rw [Option.mem_def.mp described] at read
    simp only [Option.all_some, Bool.and_eq_true, Option.isNone_iff_eq_none, decide_eq_true_eq]
      at read
    obtain ⟨⟨undated, short⟩, named⟩ := read
    refine ⟨fun phrase captured => ?_, fun _ => ⟨short, named⟩⟩
    exact absurd (undated.symm.trans (Option.mem_def.mp captured)) (Option.some_ne_none phrase).symm

theorem wishes_read (listed : phrase ∈ wishes) : ReadAsWish phrase := by
  have read : (wishes.all fun phrase => !(segments ['；'] phrase).isEmpty &&
      ((segments ['；'] phrase).filterMap placeOf).isEmpty == silentWishes.contains phrase &&
      (segments ['；'] phrase).all wishActions.contains) = true := by decide +kernel
  have here := List.all_eq_true.mp read phrase listed
  simp only [Bool.and_eq_true, Bool.not_eq_true', beq_iff_eq] at here
  obtain ⟨⟨occupied, silent⟩, actions⟩ := here
  have member {piece : List Char} (inside : piece ∈ segments ['；'] phrase) :
      piece ∈ wishActions := List.contains_iff_mem.mp (List.all_eq_true.mp actions piece inside)
  constructor
  · simpa using occupied
  · rw [← List.isEmpty_iff, silent, List.contains_iff_mem]
  · exact fun piece inside => (wishActions_read (member inside)).1
  · exact fun piece inside => (wishActions_read (member inside)).2.1
  · exact fun piece inside => (wishActions_read (member inside)).2.2

theorem departurePattern_reads (spelled : read ∈ departurePattern.language) :
    ∃ time, read = time ++ ['从'] := by
  obtain ⟨time, -, marker, last, rfl⟩ := Language.mem_mul.mp spelled
  obtain rfl := eq_of_mem_word last
  exact ⟨time, rfl⟩

theorem originPattern_reads (spelled : read ∈ originPattern.language) : '从' ∈ read := by
  obtain ⟨marker, first, rest, -, rfl⟩ := Language.mem_mul.mp spelled
  obtain rfl := eq_of_mem_word first
  exact List.mem_append_left rest (by decide)

/-- A text without `从` behind a border leaves origin and departure as they are. -/
theorem captures_append (text : List Char) (absent : '从' ∉ more) :
    capture departurePattern 1 (text ++ '；' :: more) = capture departurePattern 1 text ∧
      capture originPattern 1 (text ++ '；' :: more) = capture originPattern 1 text := by
  have behind : '从' ∉ '；' :: more := by
    intro member
    rcases List.mem_cons.mp member with same | member
    · exact absurd same (by decide)
    · exact absent member
  constructor
  · refine group_append (by decide) (nil_not_mem (by decide)) ?_ (fun before => ?_) 1
    · intro first rest _ _ occupied inside spelled
      obtain ⟨time, same⟩ := departurePattern_reads spelled
      have last : '从' = rest.getLast occupied := by
        have ends := congrArg List.getLast? same
        rw [List.getLast?_append_of_ne_nil _ occupied, List.getLast?_concat,
          List.getLast?_eq_some_getLast occupied] at ends
        exact (Option.some.inj ends).symm
      exact behind (inside.subset (last ▸ List.getLast_mem occupied))
    · refine find_eq_none fun read spelled inside => ?_
      obtain ⟨time, rfl⟩ := departurePattern_reads spelled
      exact behind (inside.subset (List.mem_append_right time List.mem_cons_self))
  · refine group_append (by decide) (nil_not_mem (by decide)) (stays_of_rejected (by decide))
      (fun before => ?_) 1
    exact find_eq_none fun read spelled inside =>
      behind (inside.subset (originPattern_reads spelled))

end phrases

/-! Texts before and after. -/

/-- The actions of a text stay the same when more comes behind it: it is no list of words, and no
white space at its end keeps a mark in its last action. -/
def Steady (text : List Char) : Prop := (ownActions text).filterMap describe = described text

/-- The tasks keep their places: nothing is appended, or phrases that leave no place behind the
actions of the text, or come too late for the limit on tasks. -/
def Undisturbed (T : Texts) (text : List Char) (answers : Dict) : Prop :=
  phrases T answers = [] ∨
    Steady text ∧ (∀ answer ∈ answers, dietary answer.1 = false) ∧
      (actions text).filterMap placeOf ≠ [] ∧
      ((∀ phrase ∈ phrases T answers, phrase ∈ silentWishes) ∨
        maxPlanningTasks ≤ ((actions text).filterMap placeOf).length)

section stability
variable {text first : List Char} {rest : List (List Char)} {pieces : List (List Char)}

theorem places_described : pieces.filterMap placeOf = (pieces.filterMap describe).filterMap
    fun description => if locate description = [] then none else some (locate description) := by
  rw [List.filterMap_filterMap]
  rfl

theorem Steady.places (steady : Steady text) :
    (ownActions text).filterMap placeOf = (actions text).filterMap placeOf := by
  rw [places_described, places_described, steady]
  rfl

/-- Behind a steady text the phrases are read one by one. -/
theorem actions_wishes (listed : ∀ phrase ∈ first :: rest, phrase ∈ wishes) :
    actions (text ++ '；' :: (first ++ rest.flatMap fun phrase => '；' :: phrase)) =
      ownActions text ++ (first :: rest).flatMap (segments ['；']) := by
  have absent : ¬ "出发".toList <:+: first ++ rest.flatMap fun phrase => '；' :: phrase := by
    intro inside
    exact (wish_chars listed '出' (inside.subset (by decide))).2 (by decide)
  rw [actions_append absent, furtherActions_wishes listed]
  by_cases several : 2 ≤ (ownActions text ++ (first :: rest).flatMap (segments ['；'])).length
  · exact orListed_of_several several
  · obtain ⟨piece, member⟩ := List.exists_mem_of_ne_nil _
      (wishes_read (listed first List.mem_cons_self)).occupied
    have inside : piece ∈ ownActions text ++ (first :: rest).flatMap (segments ['；']) :=
      List.mem_append_right _ (List.mem_append_left _ member)
    have positive := List.length_pos_of_mem inside
    obtain ⟨only, same⟩ := List.length_eq_one_iff.mp (show (ownActions text ++
      (first :: rest).flatMap (segments ['；'])).length = 1 by omega)
    rw [same] at inside ⊢
    obtain rfl := List.mem_singleton.mp inside
    exact (wishes_read (listed first List.mem_cons_self)).single piece member

theorem parseable_wishes (steady : Steady text) (parseable : Parseable text)
    (listed : ∀ phrase ∈ first :: rest, phrase ∈ wishes)
    (placed : (actions text).filterMap placeOf ≠ []) :
    Parseable (text ++ '；' :: (first ++ rest.flatMap fun phrase => '；' :: phrase)) := by
  have absent : '从' ∉ first ++ rest.flatMap fun phrase => '；' :: phrase := fun member =>
    (wish_chars listed '从' member).2 (by decide)
  obtain ⟨departs, begins⟩ := captures_append text absent
  have found : described (text ++ '；' :: (first ++ rest.flatMap fun phrase => '；' :: phrase)) =
      described text ++ ((first :: rest).flatMap (segments ['；'])).filterMap describe := by
    rw [described, actions_wishes listed, List.filterMap_append, steady]
  constructor
  · rw [departs]
    exact parseable.departure
  · rw [found]
    intro description member
    rcases List.mem_append.mp member with own | further
    · exact parseable.written description own
    · obtain ⟨piece, inside, described⟩ := List.mem_filterMap.mp further
      obtain ⟨phrase, given, inside⟩ := List.mem_flatMap.mp inside
      exact (wishes_read (listed phrase given)).written piece inside description described
  · intro unnamed
    refine absurd ?_ placed
    rw [places_described]
    refine List.filterMap_eq_nil_iff.mpr fun description member => if_pos ?_
    exact unnamed description (found ▸ List.mem_append_left _ member)
  · intro name captured
    rw [originOf, begins] at captured
    exact parseable.origin name captured

/-- Behind a steady text, phrases leave the tasks alone exactly where the text names a place and
they name none, or one too many. -/
theorem wishes_keep_iff (steady : Steady text) (parseable : Parseable text)
    (listed : ∀ phrase ∈ first :: rest, phrase ∈ wishes) :
    (Parseable (text ++ '；' :: (first ++ rest.flatMap fun phrase => '；' :: phrase)) ∧
      taskPlaces (text ++ '；' :: (first ++ rest.flatMap fun phrase => '；' :: phrase)) =
        taskPlaces text) ↔
      (actions text).filterMap placeOf ≠ [] ∧ ((∀ phrase ∈ first :: rest, phrase ∈ silentWishes) ∨
        maxPlanningTasks ≤ ((actions text).filterMap placeOf).length) := by
  have whole : (actions (text ++ '；' :: (first ++ rest.flatMap fun phrase =>
      '；' :: phrase))).filterMap placeOf = (actions text).filterMap placeOf ++
        ((first :: rest).flatMap (segments ['；'])).filterMap placeOf := by
    rw [actions_wishes listed, List.filterMap_append, steady.places]
  have silent : ((first :: rest).flatMap (segments ['；'])).filterMap placeOf = [] ↔
      ∀ phrase ∈ first :: rest, phrase ∈ silentWishes := by
    rw [List.filterMap_flatMap, List.flatMap_eq_nil_iff]
    exact forall₂_congr fun phrase given => (wishes_read (listed phrase given)).silent
  have added : ∀ place ∈ ((first :: rest).flatMap (segments ['；'])).filterMap placeOf,
      (actions place).filterMap placeOf ≠ [] := by
    intro place member
    obtain ⟨piece, inside, named⟩ := List.mem_filterMap.mp member
    obtain ⟨phrase, given, inside⟩ := List.mem_flatMap.mp inside
    exact (wishes_read (listed phrase given)).places piece inside place named
  rw [← silent]
  have possible := fun placed => parseable_wishes steady parseable listed placed
  rw [taskPlaces, taskPlaces, whole]
  generalize ((first :: rest).flatMap (segments ['；'])).filterMap placeOf = further at added ⊢
  by_cases placed : (actions text).filterMap placeOf = []
  · simp only [placed, List.nil_append, ↓reduceIte, ne_eq, not_true_eq_false, false_and, iff_false]
    rintro ⟨-, same⟩
    split at same
    · have size := congrArg List.length (List.singleton_inj.mp same)
      rw [List.length_append, List.length_cons] at size
      omega
    · have member : text ∈ further := List.mem_of_mem_take (same ▸ List.mem_singleton_self text)
      exact added text member placed
  · have able := possible placed
    have both : (actions text).filterMap placeOf ++ further ≠ [] :=
      List.append_ne_nil_of_left_ne_nil placed further
    simp only [placed, both, able, ↓reduceIte, ne_eq, not_false_eq_true, true_and]
    generalize (actions text).filterMap placeOf = own at placed ⊢
    constructor
    · intro same
      by_contra neither
      obtain ⟨loud, few⟩ := not_or.mp neither
      have size := congrArg List.length same
      have positive := List.length_pos_iff.mpr loud
      rw [List.length_take, List.length_take, List.length_append] at size
      omega
    · rintro (rfl | many)
      · rw [List.append_nil]
      · exact List.take_append_of_le_length many

/-- A text that does not end in white space and is no list of words is steady. -/
theorem steady_of_plain (ends : ∀ c ∈ (preamble.sub [] text).getLast?, Text.isSpace c = false)
    (unlisted : orListed (ownActions text) = ownActions text) : Steady text := by
  have trimmed : Text.stripped (preamble.sub [] text) =
      (preamble.sub [] text).dropWhile Text.isSpace := by
    change List.rdropWhile Text.isSpace _ = _
    refine List.rdropWhile_eq_self_iff.mpr fun occupied => ?_
    have last := ends _ (List.getLast_mem_getLast? fun empty =>
      occupied (by rw [empty, List.dropWhile_nil]))
    rw [(List.dropWhile_suffix _).getLast occupied, last]
    exact Bool.false_ne_true
  rw [Steady, described, actions, splitActions_eq, trimmed]
  exact congrArg _ unlisted.symm

end stability

/-- Where the answers keep the tasks of a parsed request, and that they keep them nowhere else
behind a steady text as long as none is about the diet. -/
theorem answers_keep_tasks {T : Texts} {L : Leaves} {today day : Int} {requestData updated : Dict}
    {answers : Dict} {text : String} {intent : ParsedIntent L}
    (asked : ∀ answer ∈ answers, asksWish answer.1 = true)
    (given : requestData.lookup "text" = some (.str text))
    (applied : applyAnswers T requestData answers = some updated)
    (parsed : ruleParse L today text = .ok intent) :
    ∃ answered, updated.lookup "text" = some (.str answered) ∧
      (Undisturbed T text.toList answers → KeepsTasks intent day answered) ∧
      (Steady text.toList → (∀ answer ∈ answers, dietary answer.1 = false) →
        KeepsTasks intent day answered → Undisturbed T text.toList answers) := by
  refine ⟨_, applyAnswers_text asked given applied, ?_⟩
  have parseable := ruleParse_ok_iff.mp ⟨intent, parsed⟩
  rw [keepsTasks_iff parsed, String.toList_append, join_appended]
  have listed : (∀ answer ∈ answers, dietary answer.1 = false) →
      ∀ phrase ∈ phrases T answers, phrase ∈ wishes := phrases_wishes
  rw [Undisturbed]
  cases given : phrases T answers with
  | nil =>
      rw [List.flatMap_nil, List.append_nil]
      exact ⟨fun _ => ⟨parseable, rfl⟩, fun _ _ _ => .inl rfl⟩
  | cons first rest =>
      rw [given] at listed
      rw [List.flatMap_cons, List.cons_append]
      constructor
      · rintro (none | ⟨steady, other, kept⟩)
        · contradiction
        · exact (wishes_keep_iff steady parseable (listed other)).mpr kept
      · intro steady other kept
        exact .inr ⟨steady, other, (wishes_keep_iff steady parseable (listed other)).mp kept⟩

/-! The wish for a short way becomes a task; the wish to walk less does not. -/

def museumRequest : Dict := [("text", .str "去博物馆")]

/-- The location names that a text is parsed to. -/
def parsedPlaces (text : String) : Option (List String) :=
  (ruleParse .plain 0 text).toOption.map fun intent => intent.tasks.map ParsedTask.locationName

theorem parsedPlaces_eq {text : String} {names : List String}
    (parsed : parsedPlaces text = some names) : ∃ intent, ruleParse .plain 0 text = .ok intent ∧
      intent.tasks.map ParsedTask.locationName = names := by
  unfold parsedPlaces at parsed
  cases answered : ruleParse .plain 0 text with
  | error =>
      rw [answered] at parsed
      contradiction
  | ok intent =>
      rw [answered] at parsed
      exact ⟨intent, rfl, Option.some.inj parsed⟩

theorem answers_keep_tasks_walking : ∃ intent updated answered,
    ruleParse .plain 0 "去博物馆" = .ok intent ∧
    applyAnswers plainTexts museumRequest [("preferences.minimize_walking", .bool true)] =
      some updated ∧ updated.lookup "text" = some (.str answered) ∧
    KeepsTasks intent 1 answered := by
  obtain ⟨intent, parsed, -⟩ : ∃ intent, ruleParse .plain 0 "去博物馆" = .ok intent ∧
    intent.tasks.map ParsedTask.locationName = ["博物馆"] := parsedPlaces_eq (by decide +kernel)
  have applied : (applyAnswers plainTexts museumRequest
      [("preferences.minimize_walking", .bool true)]).isSome = true := by decide +kernel
  obtain ⟨updated, applied⟩ := Option.isSome_iff_exists.mp applied
  obtain ⟨answered, written, keeps, -⟩ := answers_keep_tasks (by decide) rfl applied parsed
  refine ⟨intent, updated, answered, parsed, applied, written, keeps (.inr ⟨?_, ?_, ?_, .inl ?_⟩)⟩
  · refine steady_of_plain (fun c last => ?_) (by decide +kernel)
    have same : (preamble.sub [] "去博物馆".toList).getLast? = some '馆' := by decide +kernel
    obtain rfl := Option.some.inj (same.symm.trans (Option.mem_def.mp last))
    decide
  · decide
  · decide +kernel
  · decide +kernel

theorem short_way_becomes_task : ∃ intent later updated,
    ruleParse .plain 0 "去博物馆" = .ok intent ∧
    intent.tasks.map ParsedTask.locationName = ["博物馆"] ∧
    applyAnswers plainTexts museumRequest [("preferences.minimize_distance", .bool true)] =
      some updated ∧ updated.lookup "text" = some (.str "去博物馆；尽量路程短一点") ∧
    ruleParse .plain 0 "去博物馆；尽量路程短一点" = .ok later ∧
    later.tasks.map ParsedTask.locationName = ["博物馆", "尽量路程短一点"] := by
  obtain ⟨intent, parsed, places⟩ : ∃ intent, ruleParse .plain 0 "去博物馆" = .ok intent ∧
    intent.tasks.map ParsedTask.locationName = ["博物馆"] := parsedPlaces_eq (by decide +kernel)
  obtain ⟨later, parsedLater, placesLater⟩ : ∃ later,
    ruleParse .plain 0 "去博物馆；尽量路程短一点" = .ok later ∧
      later.tasks.map ParsedTask.locationName = ["博物馆", "尽量路程短一点"] :=
    parsedPlaces_eq (by decide +kernel)
  have applied : (applyAnswers plainTexts museumRequest
      [("preferences.minimize_distance", .bool true)]).isSome = true := by decide +kernel
  obtain ⟨updated, applied⟩ := Option.isSome_iff_exists.mp applied
  have written := applyAnswers_text (by decide) (show museumRequest.lookup "text" =
    some (.str "去博物馆") from rfl) applied
  exact ⟨intent, later, updated, parsed, places, applied, written, parsedLater, placesLater⟩

end MapGo.Intent
