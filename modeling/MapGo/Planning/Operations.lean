import MapGo.Planning.Workflow

/-! What the awaited operations of a planning run leave alone: only its clock, its shared state and
the revision of that. -/
namespace MapGo.Planning

open Exits Run
open MapGo.Shared (AgentType SharedState SharedStateError AgentSharedStateManager)

/-- A property to which the clock, the shared state and its revision do not matter. -/
def Workflow.Ambient {V : Type} (keep : Workflow V → Prop) : Prop :=
  ∀ (w : Workflow V) (now : Nat) (interruptions : List Interruption) (stateRevision : Int)
    (shared : Option (SharedState V)), keep w →
    keep { w with
      now := now
      interruptions := interruptions
      stateRevision := stateRevision
      shared := shared }

section ambient
variable {V α : Type} {keep : Workflow V → Prop} (ambient : Workflow.Ambient keep)
  {service : PlanningService V} {script : WorkflowScript V}
include ambient

theorem keeps_interruption : Keeps keep (interruption (V := V)) := by
  refine ends_modifyGet fun w kept => ?_
  split
  · exact kept
  · exact ambient w _ _ _ _ kept

theorem keeps_await {effect : Workflow V → α × Workflow V}
    (kept : ∀ w, keep w → keep (effect w).2) : Keeps keep (await effect) := by
  refine Keeps.bind (keeps_interruption ambient) fun next => ?_
  split
  · exact ends_modifyGet kept
  · refine Keeps.bind (keeps_modify fun w kept' => ?_) fun _ => keeps_throw
    split
    · exact kept w kept'
    · exact kept'

theorem keeps_work : Keeps keep (work (V := V)) := keeps_await ambient fun _ same => same

omit ambient in
theorem keeps_ofShared {answer : Except SharedStateError α} :
    Keeps keep (ofShared answer : Run V α) := by
  cases answer with
  | ok => exact keeps_pure
  | error => exact keeps_throw

theorem keeps_agent {outcome : Outcome α} : Keeps keep (agent outcome : Run V _) := by
  refine Keeps.bind (keeps_work ambient) fun _ => ?_
  cases outcome with
  | some => exact keeps_pure
  | none => exact keeps_throw

theorem keeps_getJson : Keeps keep (getJson (V := V)) := keeps_await ambient fun _ same => same

theorem keeps_compareSetJson {expectedRevision : Int} {state : SharedState V} :
    Keeps keep (service.compareSetJson expectedRevision state) := by
  refine keeps_await ambient fun w kept => ?_
  split
  · exact ambient w _ _ _ _ kept
  · exact kept

theorem keeps_read : Keeps keep service.read := by
  refine Keeps.bind (keeps_getJson ambient) fun found => ?_
  cases found with
  | none => exact keeps_throw
  | some raw => exact keeps_ofShared

theorem keeps_initialState : Keeps keep service.initialState := by
  refine Keeps.bind (keeps_getJson ambient) fun found => ?_
  cases found with
  | some raw => exact keeps_ofShared
  | none =>
      refine keeps_get fun w => Keeps.bind keeps_ofShared fun state => ?_
      refine Keeps.bind (keeps_compareSetJson ambient) fun stored => ?_
      cases stored with
      | true => exact keeps_pure
      | false =>
          refine Keeps.bind (keeps_getJson ambient) fun found => ?_
          cases found with
          | none => exact keeps_throw
          | some raw => exact keeps_ofShared

theorem keeps_update {actor : AgentType} {action : String} {changes : Int → List (String × V)}
    {messageIds : Int → Option String} :
    Keeps keep (service.update actor action changes messageIds) := by
  refine keeps_get fun w => Keeps.bind keeps_ofShared fun _ => ?_
  refine Keeps.bind (keeps_read ambient) fun current => keeps_get fun reached => ?_
  refine Keeps.bind keeps_ofShared fun updated => ?_
  refine Keeps.bind (keeps_compareSetJson ambient) fun stored => ?_
  cases stored with
  | true => exact keeps_modify fun w => ambient w _ _ _ _
  | false => exact keeps_throw

theorem keeps_write {actor : AgentType} {action : String} {fields : List String} :
    Keeps keep (service.write script actor action fields) := keeps_update ambient

theorem keeps_checkpoint (committed : ∀ w : Workflow V, keep w → keep { w with record := w.rows }) :
    Keeps keep service.checkpoint := by
  have commits : Keeps keep (commit (V := V)) := keeps_await ambient committed
  unfold PlanningService.checkpoint
  split
  · refine keeps_get fun w => ?_
    dsimp only
    split
    · exact Keeps.bind (keeps_read ambient) fun _ => commits
    · exact commits
  · exact keeps_pure

end ambient
end MapGo.Planning
