import MapGo.Conversation.Answers
import MapGo.Planning.Schema
import MapGo.Transition

/-! Calls of `continue_planning_conversation` on one conversation. The base revision is compared
when the row is read; the updated request is committed before the plan is made, the next revision
after it, each in the session that has read the row. -/
namespace MapGo.Conversation

open Transition

inductive ConversationState where
  | running | failed
  | planned (state : Planning.PlanningState)
  deriving DecidableEq, Repr

/-- The row, with the history of the calls whose answers its request was made with. -/
structure ConversationRow (L : Leaves) where
  state : ConversationState
  revision : Nat
  request : PlanRequest L
  applied : List Nat := []

inductive ContinuationPhase (L : Leaves) where
  | reading
  /-- The answers are applied to the row that was read. -/
  | prepared (loaded : ConversationRow L) (updated : PlanRequest L)
  /-- Behind the first commit. -/
  | planning (loaded : ConversationRow L) (updated : PlanRequest L)
  | ended

structure Continuation (L : Leaves) where
  baseRevision : Nat
  answers : Dict
  phase : ContinuationPhase L := .reading

/-- A call that has succeeded, with the stored revision before and after its last commit. -/
structure Success where
  call : Nat
  baseRevision : Nat
  before : Nat
  after : Nat
  deriving DecidableEq, Repr

structure PlanningConversation (L : Leaves) where
  /-- The request that the conversation was started with. -/
  start : PlanRequest L
  row : ConversationRow L
  calls : List (Continuation L) := []
  successes : List Success := []

inductive ContinuationAction where
  | call (baseRevision : Nat) (answers : Dict)
  | read (call : Nat)
  /-- The first commit. -/
  | begin (call : Nat)
  /-- The last commit. -/
  | finish (call : Nat) (state : Planning.PlanningState)
  /-- An exception; `marked` when `service.plan` has raised it and its handler has committed. -/
  | fail (call : Nat) (marked : Bool)

/-- An attribute that is set to the value it was loaded with is not written. -/
def written {α : Type} [DecidableEq α] (loaded new stored : α) : α :=
  if new = loaded then stored else new

namespace PlanningConversation
variable {L : Leaves} (T : Texts)

def set (s : PlanningConversation L) (index : Nat) (call : Continuation L)
    (phase : ContinuationPhase L) : PlanningConversation L :=
  { s with calls := s.calls.set index { call with phase := phase } }

/-- The calls whose answers are in the request after the first commit of a call. -/
def appliedWith (s : PlanningConversation L) (index : Nat) (loaded : ConversationRow L)
    (updated : PlanRequest L) : List Nat :=
  if updated = loaded.request ∧ s.row.applied ≠ loaded.applied then s.row.applied
  else loaded.applied ++ [index]

def step (s : PlanningConversation L) : ContinuationAction → Option (PlanningConversation L)
  | .call baseRevision answers => some { s with calls := s.calls ++ [{ baseRevision, answers }] }
  | .read index => (s.calls[index]?).bind fun call =>
      match call.phase with
      | .reading =>
          if s.row.revision = call.baseRevision then
            match updatedRequest T L s.row.request call.answers with
            | some updated => some (s.set index call (.prepared s.row updated))
            | none => some (s.set index call .ended)
          else some (s.set index call .ended)
      | _ => none
  | .begin index => (s.calls[index]?).bind fun call =>
      match call.phase with
      | .prepared loaded updated => some { s.set index call (.planning loaded updated) with
          row :=
            { state := written loaded.state .running s.row.state
              revision := s.row.revision
              request := written loaded.request updated s.row.request
              applied := s.appliedWith index loaded updated } }
      | _ => none
  | .finish index state => (s.calls[index]?).bind fun call =>
      match call.phase with
      | .planning loaded _ => some { s.set index call .ended with
          row := { s.row with state := .planned state, revision := loaded.revision + 1 }
          successes := s.successes ++
            [⟨index, call.baseRevision, s.row.revision, loaded.revision + 1⟩] }
      | _ => none
  | .fail index marked => (s.calls[index]?).bind fun call =>
      match call.phase with
      | .planning _ _ => some { s.set index call .ended with
          row := { s.row with state := if marked then .failed else s.row.state } }
      | .ended => none
      | _ => some (s.set index call .ended)

def Initial (s : PlanningConversation L) : Prop :=
  s.calls = [] ∧ s.successes = [] ∧ s.row.applied = [] ∧ s.row.request = s.start

def machine (L : Leaves) : Machine (PlanningConversation L) ContinuationAction where
  initial := Initial
  step := step T

/-- The answers of calls applied one after the other. -/
def replay (s : PlanningConversation L) (calls : List Nat) : Option (PlanRequest L) :=
  calls.foldlM (fun request index => (s.calls[index]?).bind fun call =>
    updatedRequest T L request call.answers) s.start

/-- Successful calls have different bases, each raises the revision by one, and the stored request
is made with the answers of all of them, in this order. -/
structure Serial (s : PlanningConversation L) : Prop where
  single : (s.successes.map Success.baseRevision).Nodup
  raised : ∀ success ∈ s.successes, success.after = success.before + 1
  ordered : s.successes.Pairwise fun first later => first.after < later.after
  made : s.replay T s.row.applied = some s.row.request
  reflected : (s.successes.map Success.call).Sublist s.row.applied

/-- The request that a call commits first keeps the answers of every call that has succeeded; at its
last commit no other call has moved the revision since it was read, and its own answers are still
in the stored request. -/
def undisturbed (s : PlanningConversation L) : ContinuationAction → Bool
  | .begin index => (s.calls[index]?).all fun call =>
      match call.phase with
      | .prepared loaded updated => updated = loaded.request ∨
          ∀ success ∈ s.successes, success.call ∈ loaded.applied
      | _ => true
  | .finish index _ => (s.calls[index]?).all fun call =>
      match call.phase with
      | .planning loaded _ => loaded.revision = s.row.revision ∧ index ∈ s.row.applied
      | _ => true
  | _ => true

end PlanningConversation

/-- Behind its first commit, or ended. -/
def ContinuationPhase.begun {L : Leaves} : ContinuationPhase L → Bool
  | .planning _ _ | .ended => true
  | _ => false

namespace PlanningConversation
variable {L : Leaves} {T : Texts} {s t : PlanningConversation L}

theorem replay_congr (start : t.start = s.start) {calls : List Nat}
    (same : ∀ index ∈ calls, (t.calls[index]?).map Continuation.answers =
      (s.calls[index]?).map Continuation.answers) : t.replay T calls = s.replay T calls := by
  have first (u : PlanningConversation L) (request : PlanRequest L) (index : Nat) :
      ((u.calls[index]?).bind fun call => updatedRequest T L request call.answers) =
        ((u.calls[index]?).map Continuation.answers).bind (updatedRequest T L request) := by
    rw [Option.bind_map]
    rfl
  unfold replay
  rw [start]
  generalize s.start = request
  induction calls generalizing request with
  | nil => rfl
  | cons index rest ih =>
      rw [List.foldlM_cons, List.foldlM_cons, first t, first s, same index List.mem_cons_self]
      refine Option.bind_congr fun later _ => ?_
      exact ih (fun other member => same other (List.mem_cons_of_mem _ member)) later

theorem answers_set {index : Nat} {call : Continuation L} {phase : ContinuationPhase L}
    (found : s.calls[index]? = some call) (other : Nat) :
    ((s.set index call phase).calls[other]?).map Continuation.answers =
      (s.calls[other]?).map Continuation.answers := by
  change ((s.calls.set index { call with phase := phase })[other]?).map _ = _
  by_cases here : index = other
  · subst here
    obtain ⟨inside, -⟩ := List.getElem?_eq_some_iff.mp found
    rw [List.getElem?_set_self inside, found]
    rfl
  · rw [List.getElem?_set_ne here]

/-- What holds of a version of the request, stored or read by a call. -/
structure Sound (T : Texts) (s : PlanningConversation L) (applied : List Nat)
    (request : PlanRequest L) : Prop where
  made : s.replay T applied = some request
  begun : ∀ index ∈ applied, ∃ call, s.calls[index]? = some call ∧ call.phase.begun = true
  /-- With the answers of a successful call come those of the calls before it. -/
  known : ∀ (n : Nat) (success : Success), s.successes[n]? = some success →
    success.call ∈ applied → ((s.successes.take (n + 1)).map Success.call).Sublist applied
  /-- It was made from the version that a running call has committed first. -/
  grown : ∀ (index : Nat) (call : Continuation L) (loaded : ConversationRow L)
    (updated : PlanRequest L), s.calls[index]? = some call →
    call.phase = .planning loaded updated → index ∈ applied →
    loaded.applied ++ [index] <+: applied

/-- What holds of a call and the row that it has read. -/
structure Loaded (T : Texts) (s : PlanningConversation L) (call : Continuation L)
    (loaded : ConversationRow L) (updated : PlanRequest L) : Prop where
  sound : s.Sound T loaded.applied loaded.request
  base : loaded.revision = call.baseRevision
  past : loaded.revision ≤ s.row.revision
  updates : updatedRequest T L loaded.request call.answers = some updated
  covers : loaded.revision = s.row.revision →
    (s.successes.map Success.call).Sublist loaded.applied

structure Kept (T : Texts) (s : PlanningConversation L) : Prop where
  serial : s.Serial T
  stored : s.Sound T s.row.applied s.row.request
  reads : ∀ (index : Nat) (call : Continuation L) (loaded : ConversationRow L)
    (updated : PlanRequest L), s.calls[index]? = some call →
    call.phase = .prepared loaded updated ∨ call.phase = .planning loaded updated →
    s.Loaded T call loaded updated
  past : ∀ success ∈ s.successes, success.baseRevision < s.row.revision ∧
    success.after ≤ s.row.revision ∧
    ∃ call, s.calls[success.call]? = some call ∧ call.phase = .ended

/-- A call that moves on is no less begun, and plans only from what it was not yet in. -/
theorem Sound.set {applied : List Nat} {request : PlanRequest L} {index : Nat}
    {call : Continuation L} {phase : ContinuationPhase L} (sound : s.Sound T applied request)
    (found : s.calls[index]? = some call)
    (stays : call.phase.begun = true → phase.begun = true)
    (plans : call.phase.begun = false ∨ phase = .ended) :
    (s.set index call phase).Sound T applied request where
  made := by
    rw [← sound.made]
    apply replay_congr
    · rfl
    · exact fun other _ => answers_set found other
  begun other member := by
    obtain ⟨held, at_index, begun⟩ := sound.begun other member
    by_cases here : index = other
    · subst here
      obtain rfl := Option.some.inj (found.symm.trans at_index)
      obtain ⟨inside, -⟩ := List.getElem?_eq_some_iff.mp found
      exact ⟨_, List.getElem?_set_self inside, stays begun⟩
    · exact ⟨held, (List.getElem?_set_ne here).trans at_index, begun⟩
  known := sound.known
  grown other held loaded updated at_index planning member := by
    by_cases here : index = other
    · subst here
      obtain ⟨inside, -⟩ := List.getElem?_eq_some_iff.mp found
      have same := (List.getElem?_set_self inside).symm.trans at_index
      obtain rfl := Option.some.inj same
      obtain early | rfl := plans
      · obtain ⟨held, at_index, begun⟩ := sound.begun index member
        obtain rfl := Option.some.inj (found.symm.trans at_index)
        rw [early] at begun
        contradiction
      · contradiction
    · exact sound.grown other held loaded updated ((List.getElem?_set_ne here).symm.trans at_index)
        planning member

theorem Loaded.set {index : Nat} {call held : Continuation L} {phase : ContinuationPhase L}
    {loaded : ConversationRow L} {updated : PlanRequest L} (kept : s.Loaded T held loaded updated)
    (found : s.calls[index]? = some call) (stays : call.phase.begun = true → phase.begun = true)
    (plans : call.phase.begun = false ∨ phase = .ended) :
    (s.set index call phase).Loaded T held loaded updated :=
  ⟨kept.sound.set found stays plans, kept.base, kept.past, kept.updates, kept.covers⟩

theorem Kept.set (kept : s.Kept T) {index : Nat} {call : Continuation L}
    {phase : ContinuationPhase L} (found : s.calls[index]? = some call)
    (stays : call.phase.begun = true → phase.begun = true)
    (plans : call.phase.begun = false ∨ phase = .ended)
    (loads : ∀ loaded updated, phase = .prepared loaded updated ∨ phase = .planning loaded updated →
      s.Loaded T call loaded updated) : (s.set index call phase).Kept T where
  serial :=
    { single := kept.serial.single
      raised := kept.serial.raised
      ordered := kept.serial.ordered
      made := (kept.stored.set found stays plans).made
      reflected := kept.serial.reflected }
  stored := kept.stored.set found stays plans
  reads other held loaded updated at_index works := by
    obtain ⟨inside, -⟩ := List.getElem?_eq_some_iff.mp found
    by_cases here : index = other
    · subst here
      obtain rfl := Option.some.inj ((List.getElem?_set_self inside).symm.trans at_index)
      have own := (loads loaded updated works).set found stays plans
      exact ⟨own.sound, own.base, own.past, own.updates, own.covers⟩
    · have before : s.calls[other]? = some held := (List.getElem?_set_ne here).symm.trans at_index
      exact (kept.reads other held loaded updated before works).set found stays plans
  past success member := by
    obtain ⟨base, after, held, at_index, finished⟩ := kept.past success member
    refine ⟨base, after, ?_⟩
    by_cases here : index = success.call
    · obtain ⟨inside, -⟩ := List.getElem?_eq_some_iff.mp found
      rw [← here] at at_index ⊢
      obtain rfl := Option.some.inj (found.symm.trans at_index)
      refine ⟨_, List.getElem?_set_self inside, ?_⟩
      obtain early | ended := plans
      · rw [finished] at early
        contradiction
      · exact ended
    · exact ⟨held, (List.getElem?_set_ne here).trans at_index, finished⟩

/-- Nothing is said about the state of the row. -/
theorem Kept.mark (kept : s.Kept T) (state : ConversationState) :
    { s with row := { s.row with state := state } }.Kept T where
  serial := ⟨kept.serial.single, kept.serial.raised, kept.serial.ordered, kept.serial.made,
    kept.serial.reflected⟩
  stored := ⟨kept.stored.made, kept.stored.begun, kept.stored.known, kept.stored.grown⟩
  reads index call loaded updated found works := by
    have held := kept.reads index call loaded updated found works
    exact ⟨⟨held.sound.made, held.sound.begun, held.sound.known, held.sound.grown⟩, held.base,
      held.past, held.updates, held.covers⟩
  past := kept.past

theorem Kept.call (kept : s.Kept T) (baseRevision : Nat) (answers : Dict) :
    Kept T { s with calls := s.calls ++ [⟨baseRevision, answers, .reading⟩] } := by
  have old {index : Nat} {call : Continuation L} (found : s.calls[index]? = some call) :
      (s.calls ++ [⟨baseRevision, answers, .reading⟩])[index]? = some call := by
    obtain ⟨inside, -⟩ := List.getElem?_eq_some_iff.mp found
    rwa [List.getElem?_append_left inside]
  have working {index : Nat} {call : Continuation L}
      (found : (s.calls ++ [⟨baseRevision, answers, .reading⟩])[index]? = some call)
      (works : call.phase ≠ .reading) : s.calls[index]? = some call := by
    rw [List.getElem?_append] at found
    split at found
    · exact found
    · obtain rfl := List.mem_singleton.mp (List.mem_of_getElem? found)
      exact absurd rfl works
  have sound {applied : List Nat} {request : PlanRequest L} (kept : s.Sound T applied request) :
      Sound T { s with calls := s.calls ++ [⟨baseRevision, answers, .reading⟩] } applied
        request := by
    constructor
    · rw [← kept.made]
      apply replay_congr
      · rfl
      · intro index member
        obtain ⟨call, found, -⟩ := kept.begun index member
        exact congrArg _ ((old found).trans found.symm)
    · intro index member
      obtain ⟨call, found, begun⟩ := kept.begun index member
      exact ⟨call, old found, begun⟩
    · exact kept.known
    · intro index call loaded updated found planning
      exact kept.grown index call loaded updated (working found (by rw [planning]; nofun)) planning
  constructor
  case serial =>
    exact ⟨kept.serial.single, kept.serial.raised, kept.serial.ordered, (sound kept.stored).made,
      kept.serial.reflected⟩
  case stored => exact sound kept.stored
  case reads =>
    intro index call loaded updated found works
    have before := working found (by rcases works with same | same <;> rw [same] <;> nofun)
    have held := kept.reads index call loaded updated before works
    exact ⟨sound held.sound, held.base, held.past, held.updates, held.covers⟩
  case past =>
    intro success member
    obtain ⟨base, after, call, found, finished⟩ := kept.past success member
    exact ⟨base, after, call, old found, finished⟩

theorem Kept.read (kept : s.Kept T) {index : Nat} (stepped : s.step T (.read index) = some t) :
    t.Kept T := by
  obtain ⟨call, found, stepped⟩ := Option.bind_eq_some_iff.mp stepped
  split at stepped
  next reading =>
    have early : call.phase.begun = false := by rw [reading]; rfl
    have ends : (s.set index call .ended).Kept T :=
      kept.set found (fun _ => rfl) (.inr rfl) (by rintro _ _ (same | same) <;> contradiction)
    split at stepped
    next current =>
      split at stepped
      next updated updates =>
        cases stepped
        refine kept.set found (fun begun => ?_) (.inl early) ?_
        · rw [early] at begun
          contradiction
        · rintro loaded updated (same | same)
          · obtain ⟨rfl, rfl⟩ := ContinuationPhase.prepared.inj same
            exact ⟨kept.stored, current, Nat.le_refl _, updates, fun _ => kept.serial.reflected⟩
          · contradiction
      next =>
        cases stepped
        exact ends
    next =>
      cases stepped
      exact ends
  next => contradiction

/-- The version that a call commits first. -/
theorem Kept.committed (kept : s.Kept T) {index : Nat} {call : Continuation L}
    {loaded : ConversationRow L} {updated : PlanRequest L} (found : s.calls[index]? = some call)
    (prepared : call.phase = .prepared loaded updated) :
    (s.set index call (.planning loaded updated)).Sound T (loaded.applied ++ [index]) updated := by
  have held := kept.reads index call loaded updated found (.inl prepared)
  have early : call.phase.begun = false := by rw [prepared]; rfl
  have sound : (s.set index call (.planning loaded updated)).Sound T loaded.applied
      loaded.request :=
    held.sound.set found (fun _ => rfl) (.inl early)
  obtain ⟨inside, -⟩ := List.getElem?_eq_some_iff.mp found
  constructor
  · have own : ((s.calls.set index { call with phase := .planning loaded updated })[index]?).bind
        (fun call => updatedRequest T L loaded.request call.answers) = some updated := by
      rw [List.getElem?_set_self inside]
      exact held.updates
    have before := sound.made
    unfold replay at before ⊢
    rw [List.foldlM_append, before, Option.bind_eq_bind, Option.bind_some, List.foldlM_cons]
    exact Option.bind_eq_some_iff.mpr ⟨updated, own, rfl⟩
  · intro other member
    obtain before | last := List.mem_append.mp member
    · exact sound.begun other before
    · obtain rfl := List.mem_singleton.mp last
      exact ⟨_, List.getElem?_set_self inside, rfl⟩
  · intro n success at_place member
    obtain before | last := List.mem_append.mp member
    · exact (sound.known n success at_place before).trans (List.sublist_append_left ..)
    · obtain ⟨-, -, other, at_index, finished⟩ :=
        kept.past success (List.mem_of_getElem? at_place)
      rw [List.mem_singleton.mp last] at at_index
      obtain rfl := Option.some.inj (found.symm.trans at_index)
      rw [finished] at prepared
      contradiction
  · intro other running loaded' updated' at_index planning member
    by_cases here : index = other
    · subst here
      obtain rfl := Option.some.inj ((List.getElem?_set_self inside).symm.trans at_index)
      obtain ⟨rfl, rfl⟩ := ContinuationPhase.planning.inj planning
      exact List.prefix_refl _
    · obtain before | last := List.mem_append.mp member
      · have grown := sound.grown other running loaded' updated' at_index planning before
        exact grown.trans (List.prefix_append ..)
      · exact absurd (List.mem_singleton.mp last).symm here

theorem Kept.fail (kept : s.Kept T) {index : Nat} {marked : Bool}
    (stepped : s.step T (.fail index marked) = some t) : t.Kept T := by
  obtain ⟨call, found, stepped⟩ := Option.bind_eq_some_iff.mp stepped
  have ends : (s.set index call .ended).Kept T :=
    kept.set found (fun _ => rfl) (.inr rfl) (by rintro _ _ (same | same) <;> contradiction)
  split at stepped
  next =>
    cases stepped
    exact ends.mark _
  next => contradiction
  next =>
    cases stepped
    exact ends

/-- What the first commit stores is made with the answers that it says. -/
theorem Kept.begun (kept : s.Kept T) {index : Nat} {call : Continuation L}
    {loaded : ConversationRow L} {updated : PlanRequest L} (found : s.calls[index]? = some call)
    (prepared : call.phase = .prepared loaded updated) :
    (s.set index call (.planning loaded updated)).Sound T (s.appliedWith index loaded updated)
      (written loaded.request updated s.row.request) := by
  have held := kept.reads index call loaded updated found (.inl prepared)
  have new := kept.committed found prepared
  unfold appliedWith written
  split
  next stale =>
    rw [if_pos stale.1]
    have early : call.phase.begun = false := by rw [prepared]; rfl
    exact kept.stored.set found (fun _ => rfl) (.inl early)
  next fresh =>
    split
    next same =>
      have current : s.row.applied = loaded.applied := by
        by_contra moved
        exact fresh ⟨same, moved⟩
      have stored := kept.stored.made
      rw [current, held.sound.made] at stored
      rwa [← Option.some.inj stored, ← same]
    next => exact new

/-- The calls that have succeeded are in a version with the answers of the last of them. -/
theorem Sound.covers {applied : List Nat} {request : PlanRequest L}
    (sound : s.Sound T applied request)
    (members : ∀ success ∈ s.successes, success.call ∈ applied) :
    (s.successes.map Success.call).Sublist applied := by
  rcases List.eq_nil_or_concat s.successes with none_yet | ⟨before, last, ends⟩
  · rw [none_yet]
    exact List.nil_sublist _
  · have found : s.successes[before.length]? = some last := by
      rw [ends, List.concat_eq_append, List.getElem?_concat_length]
    have covered := sound.known before.length last found
      (members last (List.mem_of_getElem? found))
    rwa [List.take_of_length_le (by rw [ends, List.length_concat])] at covered

theorem Kept.begin (kept : s.Kept T) {index : Nat} (meets : s.undisturbed (.begin index) = true)
    (stepped : s.step T (.begin index) = some t) : t.Kept T := by
  obtain ⟨call, found, stepped⟩ := Option.bind_eq_some_iff.mp stepped
  split at stepped
  next loaded updated prepared =>
    cases stepped
    have held := kept.reads index call loaded updated found (.inl prepared)
    have early : call.phase.begun = false := by rw [prepared]; rfl
    have moved : (s.set index call (.planning loaded updated)).Kept T := by
      refine kept.set found (fun _ => rfl) (.inl early) ?_
      rintro loaded' updated' (same | same)
      · contradiction
      · obtain ⟨rfl, rfl⟩ := ContinuationPhase.planning.inj same
        exact held
    have new := kept.begun found prepared
    have sound {applied : List Nat} {request : PlanRequest L} {row : ConversationRow L}
        (sound : (s.set index call (.planning loaded updated)).Sound T applied request) :
        Sound T { s.set index call (.planning loaded updated) with row := row } applied request :=
      ⟨sound.made, sound.begun, sound.known, sound.grown⟩
    constructor
    case serial =>
      refine ⟨moved.serial.single, moved.serial.raised, moved.serial.ordered, new.made, ?_⟩
      rw [undisturbed, found, Option.all_some, prepared] at meets
      change (s.successes.map Success.call).Sublist (s.appliedWith index loaded updated)
      unfold appliedWith
      split
      next => exact kept.serial.reflected
      next fresh =>
        refine List.Sublist.trans ?_ (List.sublist_append_left ..)
        obtain same | members := of_decide_eq_true meets
        · have current : s.row.applied = loaded.applied := by
            by_contra moved
            exact fresh ⟨same, moved⟩
          rw [← current]
          exact kept.serial.reflected
        · exact held.sound.covers members
    case stored => exact sound new
    case reads =>
      intro other call' loaded' updated' at_index works
      have before := moved.reads other call' loaded' updated' at_index works
      exact ⟨sound before.sound, before.base, before.past, before.updates, before.covers⟩
    case past => exact moved.past
  next => contradiction

/-- A version with the answers of a call that succeeds now has those of all before it. -/
theorem Kept.succeeds (kept : s.Kept T) {index : Nat} {call : Continuation L}
    {loaded : ConversationRow L} {updated : PlanRequest L} (found : s.calls[index]? = some call)
    (planning : call.phase = .planning loaded updated) (current : loaded.revision = s.row.revision)
    {applied : List Nat} {request : PlanRequest L} (sound : s.Sound T applied request)
    (member : index ∈ applied) : (s.successes.map Success.call ++ [index]).Sublist applied := by
  have held := kept.reads index call loaded updated found (.inr planning)
  have grown := sound.grown index call loaded updated found planning member
  exact ((held.covers current).append (List.Sublist.refl _)).trans grown.sublist

theorem Kept.finish (kept : s.Kept T) {index : Nat} {state : Planning.PlanningState}
    (meets : s.undisturbed (.finish index state) = true)
    (stepped : s.step T (.finish index state) = some t) : t.Kept T := by
  obtain ⟨call, found, stepped⟩ := Option.bind_eq_some_iff.mp stepped
  split at stepped
  next loaded updated planning =>
    cases stepped
    have held := kept.reads index call loaded updated found (.inr planning)
    rw [undisturbed, found, Option.all_some, planning] at meets
    obtain ⟨current, stays⟩ := of_decide_eq_true meets
    have moved : (s.set index call .ended).Kept T :=
      kept.set found (fun _ => rfl) (.inr rfl) (by rintro _ _ (same | same) <;> contradiction)
    obtain ⟨inside, -⟩ := List.getElem?_eq_some_iff.mp found
    have sound {applied : List Nat} {request : PlanRequest L} (sound : s.Sound T applied request) :
        Sound T { s.set index call .ended with
          row := { s.row with state := .planned state, revision := loaded.revision + 1 }
          successes := s.successes ++
            [⟨index, call.baseRevision, s.row.revision, loaded.revision + 1⟩] } applied
          request := by
      have after : (s.set index call .ended).Sound T applied request :=
        sound.set found (fun _ => rfl) (.inr rfl)
      refine ⟨after.made, after.begun, ?_, after.grown⟩
      intro n success at_place member
      rcases Nat.lt_or_ge n s.successes.length with before | last
      · rw [List.getElem?_append_left before] at at_place
        rw [List.take_append_of_le_length before]
        exact sound.known n success at_place member
      · rw [List.getElem?_append_right last] at at_place
        obtain rfl := List.mem_singleton.mp (List.mem_of_getElem? at_place)
        rw [List.take_of_length_le, List.map_append]
        · exact kept.succeeds found planning current sound member
        · rw [List.length_append, List.length_singleton]
          omega
    constructor
    case serial =>
      constructor
      · rw [List.map_append]
        refine List.Nodup.append kept.serial.single (List.nodup_singleton _) ?_
        intro base member last
        obtain ⟨success, before, rfl⟩ := List.mem_map.mp member
        have below := (kept.past success before).1
        have same : success.baseRevision = call.baseRevision := List.mem_singleton.mp last
        rw [same, ← held.base, current] at below
        exact absurd below (Nat.lt_irrefl _)
      · refine List.forall_mem_append.mpr ⟨kept.serial.raised, List.forall_mem_singleton.mpr ?_⟩
        exact congrArg (· + 1) current
      · apply List.pairwise_append.mpr
        refine ⟨kept.serial.ordered, List.pairwise_singleton .., fun success before new last => ?_⟩
        obtain rfl := List.mem_singleton.mp last
        have below := (kept.past success before).2.1
        change success.after < loaded.revision + 1
        omega
      · exact (sound kept.stored).made
      · rw [List.map_append]
        exact kept.succeeds found planning current kept.stored stays
    case stored => exact sound kept.stored
    case reads =>
      intro other call' loaded' updated' at_index works
      have before : s.calls[other]? = some call' := by
        by_cases here : index = other
        · subst here
          obtain rfl := Option.some.inj ((List.getElem?_set_self inside).symm.trans at_index)
          rcases works with same | same <;> contradiction
        · exact (List.getElem?_set_ne here).symm.trans at_index
      have held' := kept.reads other call' loaded' updated' before works
      refine ⟨sound held'.sound, held'.base, ?_, held'.updates, fun newer => ?_⟩
      · have past := held'.past
        change loaded'.revision ≤ loaded.revision + 1
        omega
      · have past := held'.past
        have newer : loaded'.revision = loaded.revision + 1 := newer
        omega
    case past =>
      refine List.forall_mem_append.mpr ⟨fun success member => ?_, List.forall_mem_singleton.mpr ?_⟩
      · obtain ⟨base, after, ends⟩ := moved.past success member
        have base : success.baseRevision < s.row.revision := base
        have after : success.after ≤ s.row.revision := after
        refine ⟨?_, ?_, ends⟩
        · change success.baseRevision < loaded.revision + 1
          omega
        · change success.after ≤ loaded.revision + 1
          omega
      · refine ⟨?_, Nat.le_refl _, _, List.getElem?_set_self inside, rfl⟩
        change call.baseRevision < loaded.revision + 1
        rw [held.base]
        exact Nat.lt_succ_self _
  next => contradiction

theorem Kept.step (kept : s.Kept T) {action : ContinuationAction}
    (meets : s.undisturbed action = true) (stepped : s.step T action = some t) : t.Kept T := by
  cases action with
  | call baseRevision answers =>
      cases stepped
      exact kept.call baseRevision answers
  | read => exact kept.read stepped
  | begin => exact kept.begin meets stepped
  | finish => exact kept.finish meets stepped
  | fail => exact kept.fail stepped

theorem Initial.kept (initial : s.Initial) : s.Kept T := by
  obtain ⟨calls, successes, applied, request⟩ := initial
  have none_yet (success : Success) : success ∉ s.successes := by rw [successes]; exact nofun
  have made : s.replay T s.row.applied = some s.row.request := by rw [applied, request]; rfl
  refine ⟨⟨?_, fun success member => absurd member (none_yet success), ?_, made, ?_⟩,
    ⟨made, ?_, ?_, ?_⟩, ?_, fun success member => absurd member (none_yet success)⟩
  · rw [successes]
    exact List.nodup_nil
  · rw [successes]
    exact List.Pairwise.nil
  · rw [successes]
    exact List.nil_sublist _
  · rw [applied]
    exact nofun
  · intro n success found
    exact absurd (List.mem_of_getElem? found) (none_yet success)
  · rw [calls]
    exact nofun
  · rw [calls]
    exact nofun

theorem Kept.reachable (reached : ((machine T L).restrict fun s a =>
    s.undisturbed a = true).Reachable s) : s.Kept T := by
  refine Machine.Reachable.invariant (P := Kept T) ?_ (fun kept stepped => ?_) reached
  · exact fun s initial => Initial.kept initial
  · obtain ⟨meets, stepped⟩ := Machine.restrict_step.mp stepped
    exact kept.step meets stepped

/-- A commit that the condition excludes breaks what has held so far. -/
theorem Kept.undisturbed_of_serial (kept : s.Kept T) {action : ContinuationAction}
    (stepped : s.step T action = some t) (serial : t.Serial T) : s.undisturbed action = true := by
  cases action with
  | begin index =>
      obtain ⟨call, found, stepped⟩ := Option.bind_eq_some_iff.mp stepped
      rw [undisturbed, found, Option.all_some]
      split at stepped
      next loaded updated prepared =>
        cases stepped
        apply decide_eq_true
        by_cases same : updated = loaded.request
        · exact .inl same
        · refine .inr fun success member => ?_
          have reflected : (s.successes.map Success.call).Sublist
              (s.appliedWith index loaded updated) := serial.reflected
          rw [appliedWith, if_neg fun both => same both.1] at reflected
          obtain before | last :=
            List.mem_append.mp (reflected.subset (List.mem_map_of_mem member))
          · exact before
          · obtain ⟨-, -, other, at_index, finished⟩ := kept.past success member
            rw [List.mem_singleton.mp last] at at_index
            obtain rfl := Option.some.inj (found.symm.trans at_index)
            rw [finished] at prepared
            contradiction
      next => contradiction
  | finish index state =>
      obtain ⟨call, found, stepped⟩ := Option.bind_eq_some_iff.mp stepped
      rw [undisturbed, found, Option.all_some]
      split at stepped
      next loaded updated planning =>
        cases stepped
        apply decide_eq_true
        have newest : (⟨index, call.baseRevision, s.row.revision, loaded.revision + 1⟩ : Success) ∈
            s.successes ++ [⟨index, call.baseRevision, s.row.revision, loaded.revision + 1⟩] :=
          List.mem_append_right _ (List.mem_singleton_self _)
        have raised := serial.raised _ newest
        have reflected := serial.reflected.subset (List.mem_map_of_mem newest)
        exact ⟨Nat.succ.inj raised, reflected⟩
      next => contradiction
  | _ => rfl

end PlanningConversation

open PlanningConversation in
/-- While no commit disturbs another call, the conversation is serial, and the first that does ends
this. -/
theorem continuations_serial (T : Texts) (L : Leaves) (s : PlanningConversation L)
    (reached : ((machine T L).restrict fun s a => s.undisturbed a = true).Reachable s) :
    s.Serial T ∧ ∀ action t, s.step T action = some t →
      (t.Serial T ↔ s.undisturbed action = true) := by
  have kept := Kept.reachable reached
  refine ⟨kept.serial, fun action t stepped => ⟨fun serial => ?_, fun meets => ?_⟩⟩
  · exact kept.undisturbed_of_serial stepped serial
  · exact (kept.step meets stepped).serial

/-- A conversation that was started with a text. -/
def started (text : {text : String // 2 ≤ text.length ∧ text.length ≤ 4000}) :
    PlanningConversation .plain where
  start := plainRequest text
  row :=
    { state := .planned .needClarification
      revision := 1
      request := plainRequest text }

theorem started_initial (text : {text : String // 2 ≤ text.length ∧ text.length ≤ 4000}) :
    (started text).Initial :=
  ⟨rfl, rfl, rfl, rfl⟩

def museumTrip : {text : String // 2 ≤ text.length ∧ text.length ≤ 4000} :=
  ⟨"museum", by decide⟩

/-- The transport mode and the departure time of the stored request. -/
def PlanningConversation.stored (s : PlanningConversation .plain) :
    Option Route.TransportMode × Option String :=
  (s.row.request .transportMode, s.row.request .departureTime)

open PlanningConversation in
theorem continuations_serial_twice : ∃ s : PlanningConversation .plain,
    ((machine plainTexts .plain).restrict fun s a => s.undisturbed a = true).Reachable s ∧
      s.row.revision = 3 ∧ s.stored = (some .driving, some "9:00") ∧ s.Serial plainTexts := by
  let script : List ContinuationAction :=
    [.call 1 [("transport_mode", .str "driving")], .read 0, .begin 0, .finish 0 .needClarification,
      .call 2 [("departure_time", .str "9:00")], .read 1, .begin 1, .finish 1 .planReady]
  have ends : ((machine plainTexts .plain).run (started museumTrip) script).map (fun s =>
      ((machine plainTexts .plain).along undisturbed (started museumTrip) script, s.row.revision,
        s.stored)) = some (true, 3, some .driving, some "9:00") := by decide +kernel
  obtain ⟨s, ran, all⟩ := Option.map_eq_some_iff.mp ends
  obtain ⟨met, rest⟩ := Prod.mk.inj all
  obtain ⟨revision, stored⟩ := Prod.mk.inj rest
  have reached := Machine.reachable_restrict_of_run script (started_initial museumTrip) ran
    (Machine.meetsAlong_of_along met)
  exact ⟨s, reached, revision, stored, (continuations_serial plainTexts .plain s reached).1⟩

open PlanningConversation in
/-- Two calls on the same revision succeed, and the answer of the first is lost. -/
theorem continuation_overwritten : ∃ s : PlanningConversation .plain,
    (machine plainTexts .plain).Reachable s ∧ s.row.revision = 2 ∧
      s.stored = (none, some "9:00") ∧ ¬ s.Serial plainTexts := by
  let script : List ContinuationAction :=
    [.call 1 [("transport_mode", .str "driving")], .call 1 [("departure_time", .str "9:00")],
      .read 0, .read 1, .begin 0, .begin 1, .finish 0 .planReady, .finish 1 .planReady]
  have ends : ((machine plainTexts .plain).run (started museumTrip) script).map (fun s =>
      (s.row.revision, s.stored, s.successes.map Success.baseRevision)) =
      some (2, (none, some "9:00"), [1, 1]) := by decide +kernel
  obtain ⟨s, ran, all⟩ := Option.map_eq_some_iff.mp ends
  obtain ⟨revision, rest⟩ := Prod.mk.inj all
  obtain ⟨stored, bases⟩ := Prod.mk.inj rest
  refine ⟨s, Machine.reachable_of_run script (started_initial museumTrip) ran, revision, stored,
    fun serial => ?_⟩
  have single := serial.single
  rw [bases] at single
  exact absurd single (by decide)

end MapGo.Conversation
