import MapGo.Intent.RuleParser
import MapGo.Postcondition

/-! When the parser of last resort gives an intent: its fields fit the schema, and no clock time
names an hour from 24 on. -/
namespace MapGo.Intent

open Postcondition Regex
open MapGo.Conversation (Leaves)

/-- The hour of a phrase that names a clock time. -/
def hourOf (phrase : List Char) : Option Nat :=
  (clockPattern.search (withDigits phrase)).map fun found => natural ((found.group 2).getD [])

/-- A phrase names no hour from 24 on. -/
def HourInRange (phrase : List Char) : Prop := ∀ hour ∈ hourOf phrase, hour < 24

/-- What a described action must keep to. -/
structure Written (piece : List Char) : Prop where
  deadline : ∀ phrase ∈ capture deadlinePattern 1 piece, HourInRange phrase
  fits : locate piece ≠ [] → piece.length ≤ 300 ∧ (locate piece).length ≤ 200

/-- The actions of a text that do not only state a preference. -/
def described (text : List Char) : List (List Char) := (actions text).filterMap describe

/-- The texts that the parser makes an intent of. -/
structure Parseable (text : List Char) : Prop where
  departure : ∀ phrase ∈ capture departurePattern 1 text, HourInRange phrase
  written : ∀ piece ∈ described text, Written piece
  /-- Without a place the whole text is the one task. -/
  whole : (∀ piece ∈ described text, locate piece = []) → text ≠ [] ∧ text.length ≤ 200
  origin : ∀ name ∈ originOf text, name.length ≤ 200

section clocks
variable {today : Int} {phrase context : List Char}

theorem clock_ok_iff {day : Int} {hour minute : Nat} :
    (∃ moment, clock day hour minute = .ok moment) ↔ hour < 24 ∧ minute < 60 := by
  unfold clock
  split
  · rename_i valid
    simp [valid]
  · rename_i invalid
    simp [invalid]

theorem digitValue_of_tens {c : Char} (member : c ∈ "012345".toList) :
    (digitValue c).getD 0 ≤ 5 := by
  have ascii : 48 ≤ c.toNat ∧ c.toNat ≤ 53 := by
    have listed : c ∈ ['0', '1', '2', '3', '4', '5'] := member
    simp only [List.mem_cons, List.not_mem_nil, or_false] at listed
    rcases listed with rfl | rfl | rfl | rfl | rfl | rfl <;> decide
  rw [digitValue_of_ascii ascii.1 (by omega), Option.getD_some]
  omega

/-- The minutes of a clock time are below 60. -/
theorem minute_lt {text : List Char} {found : Place}
    (searched : clockPattern.search text = some found) :
    natural ((found.group 3).getD []) < 60 := by
  cases held : found.group 3 with
  | none => decide
  | some digits =>
      have captured : (clockPattern.search text).bind (fun found => found.group 3) = some digits := by
        rw [searched]
        exact held
      obtain ⟨body, listed, spelled⟩ := group_language captured
      have same : body = .seq (opt (oneOf "012345")) digit := by
        simpa [clockPattern, concat, bodies, opt, words, choice, upTo, dot, word, clockMark, oneOf,
          digit] using listed
      subst same
      obtain ⟨tens, before, unit, last, rfl⟩ := Language.mem_mul.mp spelled
      obtain ⟨c, -, rfl⟩ := last
      have ones := getD_digitValue_lt c
      rw [Option.getD_some, natural_append]
      obtain ⟨d, five, rfl⟩ | rfl := before
      · have bound := digitValue_of_tens (List.contains_iff_mem.mp five)
        have value : natural [d] = 10 * 0 + (digitValue d).getD 0 := rfl
        omega
      · have value : natural [] = 0 := rfl
        omega

theorem map_ok_iff {ε α β : Type} {x : Except ε α} {f : α → β} :
    (∃ b, x.map f = .ok b) ↔ ∃ a, x = .ok a := by
  cases x with
  | ok a => simp [Except.map]
  | error => simp [Except.map]

/-- The afternoon takes no hour out of range. -/
theorem afternoon_lt_iff {afternoon : Prop} [Decidable afternoon] {hour : Nat} :
    (if afternoon ∧ hour < 12 then hour + 12 else hour) < 24 ↔ hour < 24 := by
  split
  · rename_i later
    omega
  · exact Iff.rfl

theorem datetime_ok_iff : (∃ moment, datetime today phrase context = .ok moment) ↔
    HourInRange phrase := by
  unfold datetime HourInRange hourOf
  dsimp only
  cases searched : clockPattern.search (withDigits phrase) with
  | none => simp
  | some found =>
      have minutes := minute_lt searched
      simp only [map_ok_iff, clock_ok_iff, afternoon_lt_iff, minutes, and_true, Option.map_some,
        Option.mem_def, Option.some.injEq, forall_eq']

theorem departureOf_ok_iff : (∃ departure, departureOf today context = .ok departure) ↔
    ∀ phrase ∈ capture departurePattern 1 context, HourInRange phrase := by
  unfold departureOf
  cases capture departurePattern 1 context with
  | none => simp
  | some phrase => simp [datetime_ok_iff]

end clocks

section actions
variable {today : Int} {text piece : List Char} {departure : Option Moment}

theorem deadlineOf_ok_iff : (∃ deadline, deadlineOf today text departure piece = .ok deadline) ↔
    ∀ phrase ∈ capture deadlinePattern 1 piece, HourInRange phrase := by
  unfold deadlineOf
  cases captured : capture deadlinePattern 1 piece with
  | none => simp
  | some phrase =>
      simp only [bind_eq_ok, Option.mem_def, Option.some.injEq, forall_eq']
      rw [← datetime_ok_iff]
      constructor
      · rintro ⟨deadline, moment, read, -⟩
        exact ⟨moment, read⟩
      · rintro ⟨moment, read⟩
        cases moment with
        | none => exact ⟨none, none, read, rfl⟩
        | some deadline =>
            cases departure with
            | none => exact ⟨_, some deadline, read, rfl⟩
            | some departure => exact ⟨_, some deadline, read, rfl⟩

theorem planningTask_ok_iff {description location : List Char} {service : Nat}
    {deadline : Option Moment} :
    (∃ task, planningTask description location service deadline = .ok task) ↔
      (description ≠ [] ∧ description.length ≤ 300) ∧ location.length ≤ 200 ∧ service ≤ 1440 := by
  have lengths (text : List Char) : (String.ofList text).length = text.length :=
    String.length_ofList
  unfold planningTask
  simp only [lengths, Nat.one_le_iff_ne_zero, ne_eq, List.length_eq_zero_iff]
  split
  · rename_i valid
    exact iff_of_true ⟨_, rfl⟩ valid
  · rename_i invalid
    simp [invalid]

/-- A stay has at most three digits. -/
theorem stay_le (piece : List Char) : stay piece ≤ 1440 := by
  unfold stay
  cases captured : capture stayPattern 1 piece with
  | none => exact Nat.zero_le _
  | some digits =>
      obtain ⟨body, listed, spelled⟩ := group_language captured
      have same : body = .seq digit (upTo digit 2) := by
        simpa [stayPattern, concat, bodies, opt, words, choice, upTo, word, digit] using listed
      subst same
      obtain ⟨first, one, rest, more, rfl⟩ := Language.mem_mul.mp spelled
      have single := length_of_digit one
      have others := length_le_of_upTo (fun text member => (length_of_digit member).le) more
      have value := natural_lt (first ++ rest)
      have power : 10 ^ (first ++ rest).length ≤ 10 ^ 3 := by
        apply Nat.pow_le_pow_right (by decide)
        rw [List.length_append]
        omega
      rw [Option.elim_some]
      omega

theorem locate_nil : locate [] = [] := by decide +kernel

theorem taskOf_ok_iff : (∃ task, taskOf today text departure piece = .ok task) ↔
    ∀ description ∈ describe piece, Written description := by
  unfold taskOf
  cases describe piece with
  | none => simp
  | some description =>
      simp only [Option.mem_def, Option.some.injEq, forall_eq']
      by_cases absent : locate description = []
      · simp only [absent, if_true, bind_eq_ok]
        constructor
        · rintro ⟨task, deadline, read, -⟩
          exact ⟨deadlineOf_ok_iff.mp ⟨deadline, read⟩, fun named => absurd absent named⟩
        · intro written
          obtain ⟨deadline, read⟩ := deadlineOf_ok_iff.mpr written.deadline
          exact ⟨none, deadline, read, rfl⟩
      · simp only [absent, if_false, bind_eq_ok]
        have inhabited : description ≠ [] := by
          rintro rfl
          exact absent locate_nil
        constructor
        · rintro ⟨result, deadline, read, task, planned, -⟩
          obtain ⟨⟨-, short⟩, named, -⟩ := planningTask_ok_iff.mp ⟨task, planned⟩
          exact ⟨deadlineOf_ok_iff.mp ⟨deadline, read⟩, fun _ => ⟨short, named⟩⟩
        · intro written
          obtain ⟨deadline, read⟩ := deadlineOf_ok_iff.mpr written.deadline
          obtain ⟨short, named⟩ := written.fits absent
          obtain ⟨task, planned⟩ :=
            planningTask_ok_iff.mpr ⟨⟨inhabited, short⟩, named, stay_le description⟩
          exact ⟨some task, deadline, read, task, planned, rfl⟩

/-- A piece gives no task when it only states a preference or names no place. -/
theorem taskOf_eq_none_iff {task : Option ParsedTask}
    (ran : taskOf today text departure piece = .ok task) :
    task = none ↔ ∀ description ∈ describe piece, locate description = [] := by
  unfold taskOf at ran
  cases described : describe piece with
  | none =>
      rw [described] at ran
      simp [Except.ok.inj ran.symm]
  | some description =>
      rw [described] at ran
      simp only [bind_eq_ok] at ran
      obtain ⟨deadline, -, ran⟩ := ran
      split at ran
      · rename_i absent
        simp [absent, Except.ok.inj ran.symm]
      · rename_i named
        obtain ⟨planned, -, ran⟩ := bind_eq_ok.mp ran
        simp [named, Except.ok.inj ran.symm]

end actions

section runs
variable {L : Leaves} {today : Int} {text : String}

/-- No task is found when no described action names a place. -/
theorem found_eq_nil_iff {found : List (Option ParsedTask)} {context : List Char}
    {departure : Option Moment} {pieces : List (List Char)}
    (ran : pieces.mapM (taskOf today context departure) = .ok found) :
    found.filterMap id = [] ↔ ∀ piece ∈ pieces.filterMap describe, locate piece = [] := by
  have results := mapM_ok_forall₂ ran
  clear ran
  induction results with
  | nil => simp
  | @cons piece task pieces found first later ih =>
      have absent := taskOf_eq_none_iff first
      cases described : describe piece with
      | none =>
          obtain rfl : task = none := absent.mpr (by simp [described])
          simpa [described] using ih
      | some description =>
          rw [described] at absent
          cases task with
          | none => simpa [described, absent.mp rfl description rfl] using ih
          | some task =>
              have named : locate description ≠ [] := by
                intro unnamed
                exact absurd (absent.mpr (by simpa using unnamed)) (Option.some_ne_none task)
              simp [described, named]

theorem planningIntent_ok_iff {origin : Option String} {departure : Option Moment}
    {tasks : List ParsedTask} :
    (∃ intent, planningIntent L text origin departure tasks = .ok intent) ↔
      (∀ name ∈ origin, name.length ≤ 200) ∧ 1 ≤ tasks.length ∧ tasks.length ≤ maxPlanningTasks := by
  unfold planningIntent
  split
  · rename_i valid
    exact iff_of_true ⟨_, rfl⟩ valid
  · rename_i invalid
    exact iff_of_false (by simp) invalid

/-- There is a task, of the pieces or of the whole text. -/
theorem orWholeText_ok_iff {context : List Char} {tasks : List ParsedTask} :
    (∃ all, orWholeText context tasks = .ok all ∧ all ≠ []) ↔
      (tasks = [] → context ≠ [] ∧ context.length ≤ 200) := by
  unfold orWholeText
  split
  · rename_i none
    have whole : (∃ task, planningTask context context 0 Option.none = .ok task) ↔
        context ≠ [] ∧ context.length ≤ 200 := by
      rw [planningTask_ok_iff]
      constructor
      · exact fun valid => ⟨valid.1.1, valid.2.1⟩
      · exact fun valid => ⟨⟨valid.1, by omega⟩, valid.2, Nat.zero_le _⟩
    rw [← whole, ← map_ok_iff]
    constructor
    · rintro ⟨all, made, -⟩ -
      exact ⟨all, made⟩
    · intro made
      obtain ⟨all, made⟩ := made none
      refine ⟨all, made, ?_⟩
      rintro rfl
      cases planned : planningTask context context 0 Option.none with
      | ok task =>
          rw [planned] at made
          cases made
      | error =>
          rw [planned] at made
          cases made
  · rename_i some
    exact iff_of_true ⟨tasks, rfl, some⟩ fun none => absurd none some

theorem ruleParse_ok_iff : (∃ intent, ruleParse L today text = .ok intent) ↔
    Parseable text.toList := by
  unfold ruleParse
  simp only [bind_eq_ok]
  constructor
  · rintro ⟨intent, departure, departs, found, ran, tasks, planned, made⟩
    obtain ⟨origins, least, -⟩ := planningIntent_ok_iff.mp ⟨intent, made⟩
    have inhabited : tasks ≠ [] := by
      rintro rfl
      exact absurd least (by decide)
    refine ⟨departureOf_ok_iff.mp ⟨departure, departs⟩, ?_, ?_, ?_⟩
    · intro description member
      obtain ⟨piece, inside, described⟩ := List.mem_filterMap.mp member
      exact taskOf_ok_iff.mp (mapM_ok_iff.mp ⟨found, ran⟩ piece inside) description described
    · intro unnamed
      exact orWholeText_ok_iff.mp ⟨tasks, planned, inhabited⟩ ((found_eq_nil_iff ran).mpr unnamed)
    · intro name captured
      have bound := origins (String.ofList name) (Option.mem_map_of_mem _ captured)
      rwa [String.length_ofList] at bound
  · intro parseable
    obtain ⟨departure, departs⟩ := departureOf_ok_iff.mpr parseable.departure
    have each : ∀ piece ∈ actions text.toList,
        ∃ task, taskOf today text.toList departure piece = .ok task := by
      intro piece inside
      apply taskOf_ok_iff.mpr
      exact fun description described =>
        parseable.written description (List.mem_filterMap.mpr ⟨piece, inside, described⟩)
    obtain ⟨found, ran⟩ := mapM_ok_iff.mpr each
    obtain ⟨tasks, planned, inhabited⟩ := orWholeText_ok_iff.mpr fun none =>
      parseable.whole ((found_eq_nil_iff ran).mp none)
    have positive := List.length_pos_iff.mpr inhabited
    have bounds : 1 ≤ (tasks.take maxPlanningTasks).length ∧
        (tasks.take maxPlanningTasks).length ≤ maxPlanningTasks := by
      rw [List.length_take]
      unfold maxPlanningTasks
      omega
    have origins : ∀ name ∈ (originOf text.toList).map String.ofList, name.length ≤ 200 := by
      intro name member
      obtain ⟨chars, captured, rfl⟩ := Option.mem_map.mp member
      rw [String.length_ofList]
      exact parseable.origin chars captured
    obtain ⟨intent, made⟩ := planningIntent_ok_iff.mpr ⟨origins, bounds⟩
    exact ⟨intent, departure, departs, found, ran, tasks, planned, made⟩

/-- After a failure of the model the rules decide. -/
theorem fallbackParse_ok_iff {Intent : Type} {taskCount : Intent → Nat} {reason : String} :
    (∃ intent, fallbackParse L today text taskCount (.error reason) = .ok intent) ↔
      Parseable text.toList := by
  exact map_ok_iff.trans ruleParse_ok_iff

/-- A text gives an intent of 1 to 24 tasks, from the rules and as the last resort after the
model, exactly if it is parseable. -/
theorem rule_parser_total_iff (L : Leaves) (today : Int) (text : String) :
    ((∃ intent, ruleParse L today text = .ok intent ∧
        1 ≤ intent.tasks.length ∧ intent.tasks.length ≤ maxPlanningTasks) ↔
      Parseable text.toList) ∧
    ∀ (Intent : Type) (taskCount : Intent → Nat) (reason : String),
      (∃ intent, fallbackParse L today text taskCount (.error reason) = .ok intent) ↔
        Parseable text.toList := by
  constructor
  · constructor
    · rintro ⟨intent, parsed, -⟩
      exact ruleParse_ok_iff.mp ⟨intent, parsed⟩
    · intro parseable
      obtain ⟨intent, parsed⟩ := (@ruleParse_ok_iff L today text).mpr parseable
      exact ⟨intent, parsed, intent.tasks_bounds⟩
  · exact fun Intent taskCount reason => fallbackParse_ok_iff

end runs

/-- A departure at 25 o'clock raises. -/
theorem late_hour_raises : ("25点从家出发去公园".length = 10 ∧
      ∀ intent, ruleParse .plain 0 "25点从家出发去公园" ≠ .ok intent) ∧
    ∀ other, fallbackParse .plain 0 "25点从家出发去公园" List.length
      (.error "timeout" : Except String (List String)) ≠ .ok other := by
  have named : capture departurePattern 1 "25点从家出发去公园".toList = some "25点".toList := by
    decide +kernel
  have late : hourOf "25点".toList = some 25 := by decide +kernel
  have broken : ¬ Parseable "25点从家出发去公园".toList := by
    intro parseable
    exact absurd (parseable.departure _ named 25 late) (by decide)
  refine ⟨⟨by decide, ?_⟩, ?_⟩
  · intro intent parsed
    exact broken (ruleParse_ok_iff.mp ⟨intent, parsed⟩)
  · intro other parsed
    exact broken (fallbackParse_ok_iff.mp ⟨other, parsed⟩)

end MapGo.Intent
