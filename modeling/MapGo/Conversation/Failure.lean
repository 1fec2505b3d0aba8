import MapGo.Conversation.Continuation

/-! A call of `continue_planning_conversation` that ends with an exception, while no other call
takes a step. -/
namespace MapGo.Conversation

open Transition

/-- Where the exception is raised. -/
inductive ExceptionPoint where
  | beforeCommit
  /-- Behind the first commit; `marked` when the state is set to failed. -/
  | planning (marked : Bool)
  deriving DecidableEq, Repr

namespace PlanningConversation
variable {L : Leaves} {T : Texts} {s t : PlanningConversation L} {baseRevision : Nat}
  {answers : Dict} {updated : PlanRequest L}

/-- A call that reads the row. -/
def reading (s : PlanningConversation L) (baseRevision : Nat) (answers : Dict) :
    List ContinuationAction :=
  [.call baseRevision answers, .read s.calls.length]

def failing (s : PlanningConversation L) (baseRevision : Nat) (answers : Dict) :
    ExceptionPoint → List ContinuationAction
  | .beforeCommit => s.reading baseRevision answers ++ [.fail s.calls.length false]
  | .planning marked =>
      s.reading baseRevision answers ++ [.begin s.calls.length, .fail s.calls.length marked]

def succeeding (s : PlanningConversation L) (baseRevision : Nat) (answers : Dict)
    (state : Planning.PlanningState) : List ContinuationAction :=
  s.reading baseRevision answers ++ [.begin s.calls.length, .finish s.calls.length state]

/-- The conversation is as it was, and the same call applies its answers once. -/
structure Answerable (T : Texts) (s t : PlanningConversation L) (baseRevision : Nat)
    (answers : Dict) : Prop where
  request : t.row.request = s.row.request
  revision : t.row.revision = s.row.revision
  once : ∀ state, ∃ u, (machine T L).run t (t.succeeding baseRevision answers state) = some u ∧
    updatedRequest T L s.row.request answers = some u.row.request

/-- The newest call is at a point of its handler. -/
def withCall (s : PlanningConversation L) (baseRevision : Nat) (answers : Dict)
    (phase : ContinuationPhase L) : PlanningConversation L :=
  { s with calls := s.calls ++ [{ baseRevision, answers, phase }] }

theorem newest {phase : ContinuationPhase L} :
    (s.withCall baseRevision answers phase).calls[s.calls.length]? =
      some { baseRevision, answers, phase } :=
  List.getElem?_concat_length ..

theorem calls_set {call later : Continuation L} :
    (s.calls ++ [call]).set s.calls.length later = s.calls ++ [later] := by
  rw [List.set_append_right _ _ (Nat.le_refl _), Nat.sub_self]
  rfl

theorem set_newest {phase later : ContinuationPhase L} :
    (s.withCall baseRevision answers phase).set s.calls.length
      ⟨baseRevision, answers, phase⟩ later = s.withCall baseRevision answers later := by
  unfold set withCall
  rw [calls_set]

theorem run_cons {action : ContinuationAction} {rest : List ContinuationAction} :
    (machine T L).run s (action :: rest) =
      (step T s action).bind fun t => (machine T L).run t rest := rfl

/-- A call with the stored revision and answers that can be applied has read the row. -/
theorem run_reading (accepted : s.row.revision = baseRevision)
    (updates : updatedRequest T L s.row.request answers = some updated)
    (rest : List ContinuationAction) :
    (machine T L).run s (s.reading baseRevision answers ++ rest) =
      (machine T L).run (s.withCall baseRevision answers (.prepared s.row updated)) rest := by
  have read : step T (s.withCall baseRevision answers .reading) (.read s.calls.length) =
      some (s.withCall baseRevision answers (.prepared s.row updated)) := by
    have revision : (s.withCall baseRevision answers .reading).row.revision = baseRevision :=
      accepted
    have request : updatedRequest T L (s.withCall baseRevision answers .reading).row.request
        answers = some updated := updates
    simp only [step, newest, Option.bind_some, revision, if_true, request, set_newest]
    rfl
  change (machine T L).run (s.withCall baseRevision answers .reading)
    (.read s.calls.length :: rest) = _
  rw [run_cons, read, Option.bind_some]

/-- Another call is refused, and its handler raises nothing more. -/
theorem run_refused (refused : s.row.revision ≠ baseRevision ∨
      updatedRequest T L s.row.request answers = none) (rest : List ContinuationAction) :
    (machine T L).run s (s.reading baseRevision answers ++ rest) =
      (machine T L).run (s.withCall baseRevision answers .ended) rest := by
  have read : step T (s.withCall baseRevision answers .reading) (.read s.calls.length) =
      some (s.withCall baseRevision answers .ended) := by
    simp only [step, newest, Option.bind_some]
    split
    next accepted =>
      have missing := refused.resolve_left fun other => other accepted
      have request : updatedRequest T L (s.withCall baseRevision answers .reading).row.request
        answers = none := missing
      simp only [request, set_newest]
    next => rw [set_newest]
  change (machine T L).run (s.withCall baseRevision answers .reading)
    (.read s.calls.length :: rest) = _
  rw [run_cons, read, Option.bind_some]

/-- The first commit stores the updated request. -/
theorem step_begin : step T (s.withCall baseRevision answers (.prepared s.row updated))
    (.begin s.calls.length) = some { s.withCall baseRevision answers (.planning s.row updated) with
      row :=
        { state := written s.row.state .running s.row.state
          revision := s.row.revision
          request := updated
          applied := s.row.applied ++ [s.calls.length] } } := by
  have request : written s.row.request updated
      (s.withCall baseRevision answers (.prepared s.row updated)).row.request = updated := by
    unfold written
    split
    next same => exact same.symm
    next => rfl
  have applied : (s.withCall baseRevision answers (.prepared s.row updated)).appliedWith
      s.calls.length s.row updated = s.row.applied ++ [s.calls.length] :=
    if_neg fun both => both.2 rfl
  simp only [step, newest, Option.bind_some, set_newest, applied, request]
  rfl

/-- An exception behind the first commit. -/
theorem step_fail {loaded row : ConversationRow L} {marked : Bool} :
    step T { s.withCall baseRevision answers (.planning loaded updated) with row := row }
      (.fail s.calls.length marked) = some { s.withCall baseRevision answers .ended with
        row := { row with state := if marked then .failed else row.state } } := by
  have found : ({ s.withCall baseRevision answers (.planning loaded updated) with
      row := row } : PlanningConversation L).calls[s.calls.length]? =
        some ⟨baseRevision, answers, .planning loaded updated⟩ := newest
  rw [step, found, Option.bind_some]
  unfold set withCall
  rw [calls_set]

/-- The last commit raises the revision that was read. -/
theorem step_finish {loaded row : ConversationRow L} {state : Planning.PlanningState} :
    ∃ u, step T { s.withCall baseRevision answers (.planning loaded updated) with row := row }
      (.finish s.calls.length state) = some u ∧ u.row.request = row.request := by
  have found : ({ s.withCall baseRevision answers (.planning loaded updated) with
      row := row } : PlanningConversation L).calls[s.calls.length]? =
        some ⟨baseRevision, answers, .planning loaded updated⟩ := newest
  rw [step, found, Option.bind_some]
  exact ⟨_, rfl, rfl⟩

/-- The row after a failed call: the updated request is there once it was committed. -/
theorem failed_row {point : ExceptionPoint}
    (ran : (machine T L).run s (s.failing baseRevision answers point) = some t) :
    s.row.revision = baseRevision ∧ ∃ updated,
      updatedRequest T L s.row.request answers = some updated ∧
      t.row.revision = s.row.revision ∧
      t.row.request = if point = .beforeCommit then s.row.request else updated := by
  by_cases refused : s.row.revision ≠ baseRevision ∨
      updatedRequest T L s.row.request answers = none
  · have ended (action : ContinuationAction) (rest : List ContinuationAction)
        (acts : action = .begin s.calls.length ∨ ∃ marked, action = .fail s.calls.length marked) :
        (machine T L).run s (s.reading baseRevision answers ++ action :: rest) = none := by
      rw [run_refused refused, run_cons]
      obtain rfl | ⟨marked, rfl⟩ := acts <;> rw [step, newest] <;> rfl
    cases point with
    | beforeCommit =>
        rw [failing, ended _ _ (.inr ⟨_, rfl⟩)] at ran
        contradiction
    | planning marked =>
        rw [failing, ended _ _ (.inl rfl)] at ran
        contradiction
  · obtain ⟨accepted, updates⟩ := not_or.mp refused
    obtain ⟨updated, updates⟩ := Option.ne_none_iff_exists'.mp updates
    have accepted := not_not.mp accepted
    refine ⟨accepted, updated, updates, ?_⟩
    cases point with
    | beforeCommit =>
        rw [failing, run_reading accepted updates, run_cons, step, newest, Option.bind_some,
          set_newest] at ran
        cases ran
        exact ⟨rfl, rfl⟩
    | planning marked =>
        rw [failing, run_reading accepted updates, run_cons, step_begin, Option.bind_some, run_cons,
          step_fail] at ran
        cases ran
        exact ⟨rfl, rfl⟩

theorem run_succeeding (accepted : s.row.revision = baseRevision)
    (updates : updatedRequest T L s.row.request answers = some updated)
    (state : Planning.PlanningState) :
    ∃ u, (machine T L).run s (s.succeeding baseRevision answers state) = some u ∧
      u.row.request = updated := by
  obtain ⟨u, finished, request⟩ : ∃ u, step T
      { s.withCall baseRevision answers (.planning s.row updated) with
        row := ⟨written s.row.state .running s.row.state, s.row.revision, updated,
          s.row.applied ++ [s.calls.length]⟩ } (.finish s.calls.length state) = some u ∧
      u.row.request = updated := step_finish
  refine ⟨u, ?_, request⟩
  rw [succeeding, run_reading accepted updates, run_cons, step_begin, Option.bind_some, run_cons,
    finished]
  rfl

end PlanningConversation

open PlanningConversation in
/-- A failed call leaves the conversation answerable exactly when it failed before its first commit
or its answers leave the request as it was. -/
theorem failed_continuation_answerable (T : Texts) (L : Leaves) (s t : PlanningConversation L)
    (baseRevision : Nat) (answers : Dict) (point : ExceptionPoint)
    (ran : (machine T L).run s (s.failing baseRevision answers point) = some t) :
    s.Answerable T t baseRevision answers ↔
      point = .beforeCommit ∨ updatedRequest T L s.row.request answers = some s.row.request := by
  obtain ⟨accepted, updated, updates, revision, request⟩ := failed_row ran
  constructor
  · intro answerable
    by_cases early : point = .beforeCommit
    · exact .inl early
    · rw [if_neg early, answerable.request] at request
      rw [updates, request]
      exact .inr rfl
  · intro holds
    have same : t.row.request = s.row.request := by
      obtain early | unchanged := holds
      · rw [request, if_pos early]
      · rw [request, Option.some.inj (updates.symm.trans unchanged), ite_self]
    refine ⟨same, revision, fun state => ?_⟩
    obtain ⟨u, finished, applied⟩ := run_succeeding (T := T) (s := t) (revision.trans accepted)
      (same.symm ▸ updates) state
    exact ⟨u, finished, updates.trans (congrArg some applied.symm)⟩

/-- The text of the stored request. -/
def PlanningConversation.text (s : PlanningConversation .plain) : String :=
  (s.row.request .text : {text : String // 2 ≤ text.length ∧ text.length ≤ 4000}).val

open PlanningConversation in
theorem failed_continuation_answerable_early : ∃ t : PlanningConversation .plain,
    (machine plainTexts .plain).run (started museumTrip) ((started museumTrip).failing 1
      [("preferences.minimize_walking", .bool true)] .beforeCommit) = some t ∧
      (started museumTrip).Answerable plainTexts t 1
        [("preferences.minimize_walking", .bool true)] := by
  have ends : ((machine plainTexts .plain).run (started museumTrip) ((started museumTrip).failing 1
      [("preferences.minimize_walking", .bool true)] .beforeCommit)).isSome = true := by
    decide +kernel
  obtain ⟨t, ran⟩ := Option.isSome_iff_exists.mp ends
  exact ⟨t, ran, (failed_continuation_answerable plainTexts .plain _ t 1 _ .beforeCommit ran).mpr
    (.inl rfl)⟩

open PlanningConversation in
/-- The plan fails and the same call is made again: its phrase is in the text twice. -/
theorem answers_applied_twice : ∃ t u : PlanningConversation .plain,
    (machine plainTexts .plain).run (started museumTrip) ((started museumTrip).failing 1
      [("preferences.minimize_walking", .bool true)] (.planning true)) = some t ∧
      (machine plainTexts .plain).run t (t.succeeding 1
        [("preferences.minimize_walking", .bool true)] .planReady) = some u ∧
      t.text = "museum；尽量少走路" ∧ u.text = "museum；尽量少走路；尽量少走路" ∧
      ¬ (started museumTrip).Answerable plainTexts t 1
        [("preferences.minimize_walking", .bool true)] := by
  have ends : ((machine plainTexts .plain).run (started museumTrip) ((started museumTrip).failing 1
      [("preferences.minimize_walking", .bool true)] (.planning true))).bind (fun t =>
        ((machine plainTexts .plain).run t (t.succeeding 1
          [("preferences.minimize_walking", .bool true)] .planReady)).map fun u =>
            (t.text, u.text)) = some ("museum；尽量少走路", "museum；尽量少走路；尽量少走路") := by
    decide +kernel
  obtain ⟨t, failed, ends⟩ := Option.bind_eq_some_iff.mp ends
  obtain ⟨u, again, texts⟩ := Option.map_eq_some_iff.mp ends
  obtain ⟨once, twice⟩ := Prod.mk.inj texts
  refine ⟨t, u, failed, again, once, twice, fun answerable => ?_⟩
  have same : t.text = (started museumTrip).text := by
    unfold text
    rw [answerable.request]
  rw [once] at same
  exact absurd same (by decide)

end MapGo.Conversation
