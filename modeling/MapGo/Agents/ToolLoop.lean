import MapGo.Agents.Runtime

/-! What a run of the tool loop never does, whatever its deciders and its tool executor do. -/
namespace MapGo.Agents

open Exits

namespace Deed

def isDecision : Deed → Bool
  | .decided .. => true
  | .executed .. => false

def isCall : Deed → Bool
  | .decided .. => false
  | .executed .. => true

/-- No tool is called after it: the model budget is exceeded, or a call has failed. -/
def halts (settings : RuntimeSettings) (spec : AgentSpec) : Deed → Bool
  | .decided _ totals => AgentRuntime.modelBudgetExceeded settings spec totals
  | .executed _ _ succeeded => !succeeded

end Deed

/-- So many calls are within the budgets of the run, the task and the scope. -/
structure WithinToolBudgets (settings : RuntimeSettings) (request : AgentRuntimeRequest)
    (calls : Nat) : Prop where
  run : calls ≤ (settings.maxAgentToolCallsPerRun - request.toolBudget.runCalls).toNat
  task : calls ≤ (settings.maxAgentToolCallsPerTask - request.toolBudget.taskCalls).toNat
  scope : calls ≤ (settings.maxAgentToolCallsPerTrip - request.toolBudget.scopeCalls).toNat

/-- The tool was asked for by a decision, is allowed without confirmation, and its arguments are
the validated ones of the decision. -/
def Authorized (runtime : AgentRuntime) (request : AgentRuntimeRequest) (deeds : List Deed)
    (tool : String) (arguments : Dict) : Prop :=
  (∃ reason, runtime.authorizeTool request.spec tool request.state = .ok (true, reason, false)) ∧
  ∃ result totals, .decided result totals ∈ deeds ∧
    result.decision.tool.getD "None" = tool ∧
    validateToolArguments runtime.modelValidate tool result.decision.arguments = some arguments

structure Disciplined (runtime : AgentRuntime) (request : AgentRuntimeRequest) (rounds : Nat)
    (deeds : List Deed) : Prop where
  decisions : deeds.countP Deed.isDecision ≤ rounds
  authorized : ∀ tool arguments succeeded, .executed tool arguments succeeded ∈ deeds →
    Authorized runtime request deeds tool arguments
  budgets : WithinToolBudgets runtime.settings request (deeds.countP Deed.isCall)
  halted : deeds.Pairwise fun earlier later =>
    later.isCall = true → earlier.halts runtime.settings request.spec = false

/-- The last thing that happened is the decision to finish. -/
def Finished (deeds : List Deed) : Prop :=
  ∃ earlier result totals, deeds = earlier ++ [.decided result totals] ∧
    result.decision.action = "finish"

namespace AgentRuntime
variable {runtime : AgentRuntime} {request : AgentRuntimeRequest} {toolExecutor : ToolExecutor}
  {keep pre post failed : RunState → Prop} {α : Type}

/-- The predicate does not look at what the callbacks and the next decision are shown. -/
def Ambient (keep : RunState → Prop) : Prop :=
  ∀ (s : RunState) observation history events fallbackUsed, keep s → keep { s with
    observation := observation
    history := history
    events := events
    fallbackUsed := fallbackUsed }

theorem keeps_ofExcept {outcome : Except Raised α} : Keeps keep (ofExcept outcome) := by
  cases outcome with
  | ok => exact keeps_pure
  | error => exact keeps_throw

theorem ends_ofExcept {outcome : Except Raised α} :
    Ends pre (ofExcept outcome) (fun value s => outcome = .ok value ∧ pre s) (fun _ => pre) := by
  cases outcome with
  | ok => exact ends_pure fun _ same => ⟨rfl, same⟩
  | error => exact ends_throw fun _ same => same

theorem keeps_emitTrace (ambient : Ambient keep) (event : AgentRuntimeEvent) :
    Keeps keep (runtime.emitTrace event) := by
  apply Keeps.bind (keeps_modify fun s same => ambient s _ _ _ _ same)
  intro _
  exact keeps_get fun _ => keeps_ofExcept

theorem keeps_decide (ambient : Ambient keep) (stepIndex : Nat) :
    Keeps keep (runtime.decide stepIndex) := by
  apply keeps_get
  intro run
  apply Keeps.bind keeps_ofExcept
  intro context
  cases runtime.decider context run.history with
  | ok => exact keeps_pure
  | error raised =>
      cases raised with
      | cancelled => exact keeps_throw
      | exception error =>
          apply Keeps.bind (keeps_modify fun s same => ambient s _ _ _ _ same)
          intro _
          exact Keeps.bind (keeps_emitTrace ambient _) fun _ => keeps_ofExcept

theorem ends_appendStep {step : AgentRuntimeStep}
    (appended : ∀ s : RunState, pre s → post { s with steps := s.steps ++ [step] })
    (raises : ∀ s, pre s → failed s) :
    Ends pre (appendStep step) (fun _ => post) (fun _ => failed) := by
  unfold appendStep
  split
  · exact ends_modify appended
  · exact ends_throw raises

theorem ends_recordTool {step : AgentRuntimeStep} {tool : String} (ambient : Ambient post)
    (appended : ∀ s : RunState, pre s → post { s with steps := s.steps ++ [step] })
    (raises : ∀ s, pre s → failed s) (weaker : ∀ s, post s → failed s) :
    Ends pre (runtime.recordTool step tool) (fun _ => post) (fun _ => failed) := by
  apply Ends.bind (ends_appendStep appended raises)
  intro _
  refine Keeps.ends (Keeps.bind (keeps_modify fun s same => ?_) fun _ => ?_) weaker
  · exact ambient s _ _ _ _ same
  · exact keeps_emitTrace ambient _

end AgentRuntime

namespace Disciplined
variable {runtime : AgentRuntime} {request : AgentRuntimeRequest} {rounds : Nat}
  {deeds : List Deed}

theorem mono {later : Nat} (disciplined : Disciplined runtime request rounds deeds)
    (fewer : rounds ≤ later) : Disciplined runtime request later deeds :=
  { disciplined with decisions := disciplined.decisions.trans fewer }

theorem nil : Disciplined runtime request 0 [] where
  decisions := Nat.le_refl 0
  authorized := by
    intro tool arguments succeeded member
    cases member
  budgets := ⟨Nat.zero_le _, Nat.zero_le _, Nat.zero_le _⟩
  halted := .nil

theorem pairwise_append {later : Deed} (disciplined : Disciplined runtime request rounds deeds)
    (calm : later.isCall = true →
      ∀ deed ∈ deeds, deed.halts runtime.settings request.spec = false) :
    (deeds ++ [later]).Pairwise fun earlier later =>
      later.isCall = true → earlier.halts runtime.settings request.spec = false := by
  rw [List.pairwise_append]
  refine ⟨disciplined.halted, List.pairwise_singleton _ _, ?_⟩
  intro deed member other last call
  obtain rfl := List.mem_singleton.mp last
  exact calm call deed member

theorem authorized_append {later : Deed} {tool : String} {arguments : Dict}
    (authorized : Authorized runtime request deeds tool arguments) :
    Authorized runtime request (deeds ++ [later]) tool arguments := by
  obtain ⟨allowed, result, totals, member, asked, valid⟩ := authorized
  exact ⟨allowed, result, totals, List.mem_append_left _ member, asked, valid⟩

theorem decided (disciplined : Disciplined runtime request rounds deeds) (result : DecisionResult)
    (totals : Totals) :
    Disciplined runtime request (rounds + 1) (deeds ++ [.decided result totals]) where
  decisions := by
    have before := disciplined.decisions
    simp only [List.countP_append, List.countP_singleton, Deed.isDecision, if_true]
    omega
  authorized := by
    intro tool arguments succeeded member
    obtain earlier | last := List.mem_append.mp member
    · exact authorized_append (disciplined.authorized tool arguments succeeded earlier)
    · simp at last
  budgets := by
    have before := disciplined.budgets
    simpa only [List.countP_append, List.countP_singleton, Deed.isCall, Bool.false_eq_true,
      if_false, Nat.add_zero] using before
  halted := disciplined.pairwise_append (by simp [Deed.isCall])

theorem executed {tool : String} {arguments : Dict} {succeeded : Bool}
    (disciplined : Disciplined runtime request rounds deeds)
    (calm : ∀ deed ∈ deeds, deed.halts runtime.settings request.spec = false)
    (authorized : Authorized runtime request deeds tool arguments)
    (fits : WithinToolBudgets runtime.settings request (deeds.countP Deed.isCall + 1)) :
    Disciplined runtime request rounds (deeds ++ [.executed tool arguments succeeded]) where
  decisions := by
    have before := disciplined.decisions
    simpa only [List.countP_append, List.countP_singleton, Deed.isDecision, Bool.false_eq_true,
      if_false, Nat.add_zero] using before
  authorized := by
    intro other given ended member
    obtain earlier | last := List.mem_append.mp member
    · exact authorized_append (disciplined.authorized other given ended earlier)
    · obtain ⟨rfl, rfl, rfl⟩ := Deed.executed.inj (List.mem_singleton.mp last)
      exact authorized_append authorized
  budgets := by
    simpa only [List.countP_append, List.countP_singleton, Deed.isCall, if_true] using fits
  halted := disciplined.pairwise_append fun _ => calm

end Disciplined

/-- A tool call that the budget check lets through is within the budgets. -/
theorem withinToolBudgets_succ {settings : RuntimeSettings} {request : AgentRuntimeRequest}
    {calls used : Nat} (checked : AgentRuntime.toolBudgetExceeded settings request used = false)
    (fewer : calls ≤ used) : WithinToolBudgets settings request (calls + 1) := by
  simp only [AgentRuntime.toolBudgetExceeded, Bool.or_eq_false_iff, decide_eq_false_iff_not,
    not_le] at checked
  obtain ⟨⟨run, task⟩, scope⟩ := checked
  exact ⟨by omega, by omega, by omega⟩

/-- A registered tool has a name. -/
theorem ne_empty_of_authorizeTool {runtime : AgentRuntime} {spec : AgentSpec}
    {tool state reason : String}
    (allowed : runtime.authorizeTool spec tool state = .ok (true, reason, false)) : tool ≠ "" := by
  rintro rfl
  have unregistered : capability "" = none := by decide
  simp [AgentRuntime.authorizeTool, authorize, unregistered] at allowed

namespace AgentRuntime
variable {runtime : AgentRuntime} {request : AgentRuntimeRequest} {toolExecutor : ToolExecutor}
  {rounds slack : Nat} {keep : RunState → Prop}

/-- The loop goes on: nothing has halted it, and the steps count the tool calls but the last few. -/
structure Going (runtime : AgentRuntime) (request : AgentRuntimeRequest) (rounds slack : Nat)
    (s : RunState) : Prop where
  disciplined : Disciplined runtime request rounds s.deeds
  calm : ∀ deed ∈ s.deeds, deed.halts runtime.settings request.spec = false
  counted : s.deeds.countP Deed.isCall ≤ s.steps.countP usesTool + slack

/-- The loop has ended. -/
structure Ended (runtime : AgentRuntime) (request : AgentRuntimeRequest) (rounds : Nat)
    (status : RunStatus) (s : RunState) : Prop where
  disciplined : Disciplined runtime request rounds s.deeds
  finished : status = .succeeded → Finished s.deeds

theorem Going.ambient : Ambient (Going runtime request rounds slack) :=
  fun _ _ _ _ _ going => ⟨going.disciplined, going.calm, going.counted⟩

theorem Ended.ambient {status : RunStatus} : Ambient (Ended runtime request rounds status) :=
  fun _ _ _ _ _ ended => ⟨ended.disciplined, ended.finished⟩

/-- Steps that name no call are counted too. -/
theorem Going.appendStep {s : RunState} (going : Going runtime request rounds slack s)
    (step : AgentRuntimeStep) :
    Going runtime request rounds slack { s with steps := s.steps ++ [step] } where
  disciplined := going.disciplined
  calm := going.calm
  counted := by
    have before := going.counted
    simp only [List.countP_append]
    omega

/-- The step of a call makes up for it. -/
theorem Going.appendCall {s : RunState} (going : Going runtime request rounds (slack + 1) s)
    {step : AgentRuntimeStep} (uses : usesTool step = true) :
    Going runtime request rounds slack { s with steps := s.steps ++ [step] } where
  disciplined := going.disciplined
  calm := going.calm
  counted := by
    have before := going.counted
    simp only [List.countP_append, List.countP_singleton, uses, if_true]
    omega

/-- The tool is about to be called. -/
structure Calling (runtime : AgentRuntime) (request : AgentRuntimeRequest) (rounds : Nat)
    (tool : String) (arguments : Dict) (s : RunState) : Prop where
  going : Going runtime request rounds 0 s
  authorized : Authorized runtime request s.deeds tool arguments
  fits : WithinToolBudgets runtime.settings request (s.deeds.countP Deed.isCall + 1)

theorem Calling.disciplined {s : RunState} {tool : String} {arguments : Dict}
    (calling : Calling runtime request rounds tool arguments s) (succeeded : Bool) :
    Disciplined runtime request rounds (s.deeds ++ [.executed tool arguments succeeded]) :=
  calling.going.disciplined.executed calling.going.calm calling.authorized calling.fits

/-- After a call that has succeeded the loop goes on. -/
theorem Calling.succeeded {s : RunState} {tool : String} {arguments : Dict}
    (calling : Calling runtime request rounds tool arguments s) :
    Going runtime request rounds 1
      { s with deeds := s.deeds ++ [.executed tool arguments true] } where
  disciplined := calling.disciplined true
  calm := by
    intro deed member
    obtain earlier | last := List.mem_append.mp member
    · exact calling.going.calm deed earlier
    · obtain rfl := List.mem_singleton.mp last
      rfl
  counted := by
    have before := calling.going.counted
    simp only [List.countP_append, List.countP_singleton, Deed.isCall, if_true]
    omega

theorem ends_executeTool {tool : String} {arguments : Dict} :
    Ends (Calling runtime request rounds tool arguments) (executeTool toolExecutor tool arguments)
      (fun outcome s => Disciplined runtime request rounds s.deeds ∧
        (outcome.isOk = true → Going runtime request rounds 1 s))
      (fun _ s => Disciplined runtime request rounds s.deeds) := by
  apply ends_get
  intro run calling
  cases toolExecutor tool arguments run.history with
  | ok raw =>
      rintro s rfl
      refine ⟨calling.disciplined _, fun succeeded => ?_⟩
      have going := calling.succeeded
      rwa [← succeeded] at going
  | error raised =>
      cases raised with
      | exception =>
          rintro s rfl
          refine ⟨calling.disciplined false, fun failed => ?_⟩
          cases failed
      | cancelled =>
          rintro s rfl
          exact calling.disciplined false

/-- What is left after a step: another round, or the end. -/
def Left (runtime : AgentRuntime) (request : AgentRuntimeRequest) (rounds : Nat)
    (answer : Option RunStatus) (s : RunState) : Prop :=
  answer.elim (Going runtime request rounds 0 s) fun status =>
    Ended runtime request rounds status s

/-- The decision of this round is known. -/
def Decided (runtime : AgentRuntime) (request : AgentRuntimeRequest) (rounds : Nat)
    (decision : AgentDecision) (s : RunState) : Prop :=
  Going runtime request rounds 0 s ∧
    ∃ result totals, .decided result totals ∈ s.deeds ∧ result.decision = decision

theorem Decided.ambient {decision : AgentDecision} :
    Ambient (Decided runtime request rounds decision) :=
  fun s observation history events fallbackUsed decided =>
    ⟨Going.ambient s observation history events fallbackUsed decided.1, decided.2⟩

theorem Decided.disciplined {decision : AgentDecision} {s : RunState}
    (decided : Decided runtime request rounds decision s) :
    Disciplined runtime request rounds s.deeds := decided.1.disciplined

/-- A call that is not made, after which the loop goes on. -/
theorem ends_declined {decision : AgentDecision} (step : AgentRuntimeStep) (tool : String)
    {s : RunState} (decided : Decided runtime request rounds decision s) :
    Ends (fun t => t = s) (do runtime.recordTool step tool; pure none)
      (Left runtime request rounds) (fun _ s => Disciplined runtime request rounds s.deeds) := by
  apply Ends.bind (m := fun _ => Going runtime request rounds 0)
  · apply ends_recordTool Going.ambient
    · rintro t rfl
      exact decided.1.appendStep step
    · rintro t rfl
      exact decided.disciplined
    · exact fun _ going => going.disciplined
  · exact fun _ => ends_pure fun _ going => going

/-- The call has been made and is recorded. -/
theorem ends_called {step : AgentRuntimeStep} {tool : String} (uses : usesTool step = true) :
    Ends (Going runtime request rounds 1) (do runtime.recordTool step tool; pure none)
      (Left runtime request rounds) (fun _ s => Disciplined runtime request rounds s.deeds) := by
  apply Ends.bind (m := fun _ => Going runtime request rounds 0)
  · exact ends_recordTool Going.ambient (fun _ going => going.appendCall uses)
      (fun _ going => going.disciplined) fun _ going => going.disciplined
  · exact fun _ => ends_pure fun _ going => going

/-- A last step that is no success. -/
theorem Ended.unfinished {s : RunState} {status : RunStatus} (other : status ≠ .succeeded)
    (disciplined : Disciplined runtime request rounds s.deeds) :
    Ended runtime request rounds status s :=
  ⟨disciplined, fun same => absurd same other⟩

theorem ends_callTool {stepIndex : Nat} {decision : AgentDecision} :
    Ends (Decided runtime request rounds decision)
      (runtime.callTool request toolExecutor stepIndex decision)
      (Left runtime request rounds) (fun _ s => Disciplined runtime request rounds s.deeds) := by
  have weaken (s) : Decided runtime request rounds decision s →
      Disciplined runtime request rounds s.deeds := Decided.disciplined
  apply Ends.bind (Keeps.ends (keeps_emitTrace Decided.ambient _) weaken)
  intro _
  apply Ends.bind (ends_ofExcept.mono (fun _ same => same) (fun _ _ same => same) fun _ => weaken)
  rintro ⟨allowed, reason, confirmationRequired⟩
  apply Ends.assume
  intro authorized
  apply ends_get
  intro run decided
  split
  · -- The budget of tool calls is used up.
    apply Ends.bind (m := fun _ => Ended runtime request rounds .budgetExceeded)
    · apply ends_appendStep
      · rintro s rfl
        exact Ended.unfinished (by decide) decided.disciplined
      · rintro s rfl
        exact decided.disciplined
    · exact fun _ => ends_pure fun _ same => same
  · rename_i checked
    split
    · -- The call is denied.
      exact ends_declined _ _ decided
    · rename_i granted
      obtain ⟨rfl, rfl⟩ : allowed = true ∧ confirmationRequired = false := by
        simpa using granted
      cases valid : validateToolArguments runtime.modelValidate (decision.tool.getD "None")
          decision.arguments with
      | none =>
          exact ends_declined _ _ decided
      | some arguments =>
          have calling : Calling runtime request rounds (decision.tool.getD "None") arguments run := by
            obtain ⟨going, result, totals, member, rfl⟩ := decided
            refine ⟨going, ⟨⟨reason, authorized⟩, result, totals, member, rfl, valid⟩, ?_⟩
            exact withinToolBudgets_succ (Bool.eq_false_iff.mpr checked) going.counted
          apply Ends.bind (ends_executeTool.narrow ?_)
          · intro outcome
            cases outcome with
            | ok output =>
                refine (ends_called ?_).narrow fun s called => called.2 rfl
                simpa [usesTool] using ne_empty_of_authorizeTool authorized
            | error error =>
                apply Ends.bind (m := fun _ => Ended runtime request rounds .toolFailed)
                · apply ends_recordTool Ended.ambient
                  · exact fun _ called => Ended.unfinished (by decide) called.1
                  · exact fun _ called => called.1
                  · exact fun _ ended => ended.disciplined
                · exact fun _ => ends_pure fun _ ended => ended
          · rintro s rfl
            exact calling

/-- The state in which the loop is after the decision of a round. -/
theorem Going.decided {s : RunState} (going : Going runtime request rounds 0 s)
    {result : DecisionResult} {totals : Totals}
    (within : modelBudgetExceeded runtime.settings request.spec totals = false)
    {later : RunState} (deeds : later.deeds = s.deeds ++ [.decided result totals])
    (steps : later.steps = s.steps) :
    Decided runtime request (rounds + 1) result.decision later := by
  refine ⟨⟨?_, ?_, ?_⟩, result, totals, ?_, rfl⟩
  · exact deeds ▸ going.disciplined.decided result totals
  · intro deed member
    rw [deeds] at member
    obtain earlier | last := List.mem_append.mp member
    · exact going.calm deed earlier
    · obtain rfl := List.mem_singleton.mp last
      exact within
  · have before := going.counted
    rw [deeds, steps]
    simpa only [List.countP_append, List.countP_singleton, Deed.isCall, Bool.false_eq_true,
      if_false, Nat.add_zero] using before
  · rw [deeds]
    exact List.mem_append_right _ (List.mem_singleton_self _)

/-- The totals of a decision are known, and nothing else has happened since. -/
structure Accounted (runtime : AgentRuntime) (request : AgentRuntimeRequest) (rounds : Nat)
    (result : DecisionResult) (totals : Totals) (s : RunState) : Prop where
  going : ∃ before, Going runtime request rounds 0 before ∧
    s.deeds = before.deeds ++ [.decided result totals] ∧ s.steps = before.steps

theorem Accounted.ambient {result : DecisionResult} {totals : Totals} :
    Ambient (Accounted runtime request rounds result totals) :=
  fun _ _ _ _ _ accounted => ⟨accounted.going⟩

theorem Accounted.disciplined {result : DecisionResult} {totals : Totals} {s : RunState}
    (accounted : Accounted runtime request rounds result totals s) :
    Disciplined runtime request (rounds + 1) s.deeds := by
  obtain ⟨before, going, deeds, _⟩ := accounted.going
  rw [deeds]
  exact going.disciplined.decided result totals

theorem ends_account (result : DecisionResult) :
    Ends (Going runtime request rounds 0) (runtime.account result)
      (fun totals => Accounted runtime request rounds result totals)
      (fun _ s => Disciplined runtime request (rounds + 1) s.deeds) :=
  ends_modifyGet fun s going => ⟨s, going, rfl, rfl⟩

theorem ends_iteration {stepIndex : Nat} :
    Ends (Going runtime request rounds 0) (runtime.iteration request toolExecutor stepIndex)
      (Left runtime request (rounds + 1))
      (fun _ s => Disciplined runtime request (rounds + 1) s.deeds) := by
  apply Ends.bind
  · refine Keeps.ends (keeps_decide Going.ambient stepIndex) fun s going => ?_
    exact going.disciplined.mono (Nat.le_succ _)
  intro result
  apply Ends.bind (ends_account result)
  intro totals
  split
  · -- The model budget is exceeded.
    apply Ends.bind (m := fun _ => Ended runtime request (rounds + 1) .budgetExceeded)
    · apply ends_appendStep
      · exact fun _ accounted => Ended.unfinished (by decide) accounted.disciplined
      · exact fun _ accounted => accounted.disciplined
    · exact fun _ => ends_pure fun _ ended => ended
  · rename_i within
    apply Ends.bind (m := fun _ => Accounted runtime request rounds result totals)
    · exact Keeps.ends (keeps_emitTrace Accounted.ambient _) fun _ => Accounted.disciplined
    intro _
    split
    · -- The decider finishes.
      rename_i finish
      apply Ends.bind (m := fun _ => Ended runtime request (rounds + 1) .succeeded)
      · apply ends_appendStep
        · intro s accounted
          obtain ⟨before, _, deeds, _⟩ := accounted.going
          exact ⟨accounted.disciplined, fun _ => ⟨before.deeds, result, totals, deeds, finish⟩⟩
        · exact fun _ accounted => accounted.disciplined
      · exact fun _ => ends_pure fun _ ended => ended
    · apply ends_callTool.narrow
      rintro s ⟨⟨before, going, deeds, steps⟩⟩
      exact going.decided (Bool.eq_false_iff.mpr within) deeds steps

theorem ends_loop :
    Ends (Going runtime request 0 0)
      (Exits.rounds (runtime.iteration request toolExecutor) .stepLimitReached 0
        (limit runtime.settings request))
      (Ended runtime request (limit runtime.settings request))
      (fun _ s => Disciplined runtime request (limit runtime.settings request) s.deeds) := by
  apply ends_rounds fun round => Going runtime request round 0
  · intro round below
    apply ends_iteration.mono (fun _ same => same)
    · intro answer s left
      cases answer with
      | none => exact left
      | some status => exact ⟨left.disciplined.mono below, left.finished⟩
    · exact fun _ s disciplined => disciplined.mono below
  · intro s going
    exact Ended.unfinished (by decide) going.disciplined
  · exact Nat.zero_add _

theorem keeps_validateArtifact (spec : AgentSpec) (artifact : ArtifactEnvelope) :
    Keeps keep (runtime.validateArtifact spec artifact) := by
  unfold validateArtifact
  split
  · exact Keeps.bind keeps_throw fun _ => keeps_ofExcept
  · exact keeps_ofExcept

/-- What follows the loop calls no tool and makes no decision, and reports what the state before
it says. -/
theorem keeps_conclude (ambient : Ambient keep) (status : RunStatus) :
    Ends keep (runtime.conclude request status)
      (fun reported s => (∃ run, keep run ∧
        ∃ artifact sharedState, artifact.status = status ∧ reported =
          { result runtime.settings artifact run with sharedState := sharedState }) ∧ keep s)
      (fun _ => keep) := by
  apply ends_get
  intro run kept
  apply Ends.bind (m := fun _ => keep)
  · refine Ends.narrow (keeps_validateArtifact _ _) fun s same => same ▸ kept
  intro _
  dsimp only
  split
  · exact fun _ same => same
  apply Ends.bind keeps_ofExcept
  intro sharedState
  cases sharedState with
  | none =>
      apply Ends.bind (keeps_emitTrace ambient _)
      exact fun _ => ends_pure fun _ same => ⟨⟨run, kept, _, none, rfl, rfl⟩, same⟩
  | some payload =>
      apply Ends.bind (keeps_emitTrace ambient _)
      intro _
      apply Ends.bind (keeps_emitTrace ambient _)
      exact fun _ => ends_pure fun _ same => ⟨⟨run, kept, _, some payload, rfl, rfl⟩, same⟩

theorem ends_execute (runtime : AgentRuntime) (request : AgentRuntimeRequest)
    (toolExecutor : ToolExecutor) :
    Ends (fun s => s.deeds = [] ∧ s.steps = []) (runtime.execute request toolExecutor)
      (fun result => Ended runtime request (limit runtime.settings request) result.status)
      (fun _ s => Disciplined runtime request (limit runtime.settings request) s.deeds) := by
  have fresh (s : RunState) (start : s.deeds = [] ∧ s.steps = []) :
      Going runtime request 0 0 s := by
    obtain ⟨deeds, steps⟩ := start
    refine ⟨deeds ▸ .nil, ?_, ?_⟩
    · intro deed member
      rw [deeds] at member
      cases member
    · rw [deeds, steps]
      exact Nat.le_refl 0
  have untouched (s : RunState) (going : Going runtime request 0 0 s) :
      Disciplined runtime request (limit runtime.settings request) s.deeds :=
    going.disciplined.mono (Nat.zero_le _)
  refine Ends.narrow ?_ fresh
  unfold execute
  split
  · exact untouched
  · apply Ends.bind (Keeps.ends (keeps_emitTrace Going.ambient _) untouched)
    intro _
    apply Ends.bind ends_loop
    intro status
    apply Ends.mono (keeps_conclude Ended.ambient status) (fun _ same => same)
    · rintro _ s ⟨⟨run, _, artifact, sharedState, rfl, rfl⟩, ended⟩
      exact ended
    · exact fun _ s ended => ended.disciplined

/-- Whatever the deciders and the tool executor do: no more decisions than the limit, only
authorized calls with validated arguments, within the budgets, none after the model budget is
exceeded or a call has failed; and only a decision to finish makes a run succeed. -/
theorem tool_loop_disciplined (runtime : AgentRuntime) (request : AgentRuntimeRequest)
    (toolExecutor : ToolExecutor) :
    Disciplined runtime request (limit runtime.settings request)
      (runtime.deeds request toolExecutor) ∧
    ∀ result s, runtime.run request toolExecutor = .ok result s → result.status = .succeeded →
      Finished (runtime.deeds request toolExecutor) := by
  have ends := ends_execute runtime request toolExecutor { observation := request.observation }
    ⟨rfl, rfl⟩
  unfold deeds run
  cases ran : runtime.execute request toolExecutor { observation := request.observation } with
  | ok result s =>
      rw [ran] at ends
      refine ⟨ends.disciplined, ?_⟩
      rintro other later same
      obtain ⟨rfl, rfl⟩ := EStateM.Result.ok.inj same
      exact ends.finished
  | error raised s =>
      rw [ran] at ends
      refine ⟨ends, ?_⟩
      intro other later same
      cases same

end AgentRuntime

/-- One call, and then the fallback decider finishes. -/
theorem tool_loop_disciplined_companion : ∃ result s,
    (companionRuntime failingModel).run companionRequest answersNothing = .ok result s ∧
      result.status = .succeeded ∧
      ((companionRuntime failingModel).deeds companionRequest answersNothing).map Deed.isCall =
        [false, true, false] ∧
      Finished ((companionRuntime failingModel).deeds companionRequest answersNothing) := by
  have status : (companionRuntime failingModel).status companionRequest answersNothing =
      some .succeeded := by decide +kernel
  unfold AgentRuntime.status at status
  cases ran : (companionRuntime failingModel).run companionRequest answersNothing with
  | error =>
      rw [ran] at status
      cases status
  | ok result s =>
      rw [ran] at status
      have succeeded := Option.some.inj status
      refine ⟨result, s, rfl, succeeded, ?_, ?_⟩
      · decide +kernel
      · exact (AgentRuntime.tool_loop_disciplined _ _ _).2 result s ran succeeded

end MapGo.Agents
