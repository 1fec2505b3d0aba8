import MapGo.Attempts
import MapGo.Transport.Schema

/-! Workers on one channel, for any transport. A run keeps what every worker does and the history
of executed handlers; numbered attempts account for the deliveries behind them. -/
namespace MapGo.Transport

open Attempts

/-- Where a worker is in `run_once`. A claimed entry has not yet had its deliveries counted. -/
inductive Work where
  | idle
  | claimed (receipt : Nat) (message : AgentMessage)
  | delivered (d : AgentMessageDelivery)
  | handling (d : AgentMessageDelivery)
  deriving DecidableEq, Repr

/-- The steps of any number of workers on one channel, of publishers and of time. -/
inductive WorkerAction where
  | publish (idempotencyKey : String) (attempt : Nat)
  | forget (idempotencyKey : String)
  | wait (ms : Nat)
  | receive (worker : Nat)
  | reclaim (worker receipt : Nat)
  | count (worker : Nat)
  | start (worker : Nat)
  | succeed (worker : Nat)
  | fail (worker : Nat) (errorCode : String)
  | crash (worker : Nat)

structure WorkerRun (T : Type) where
  transport : T
  works : Nat → Work := fun _ => .idle
  /-- History: the publications whose handler was executed, in order. -/
  executions : List Nat := []

def WorkerRun.put (s : WorkerRun T) (worker : Nat) (work : Work) : WorkerRun T :=
  { s with works := Function.update s.works worker work }

@[simp] theorem put_transport (s : WorkerRun T) (worker : Nat) (work : Work) :
    (s.put worker work).transport = s.transport := rfl

@[simp] theorem put_works_self (s : WorkerRun T) (worker : Nat) (work : Work) :
    (s.put worker work).works worker = work := Function.update_self ..

theorem put_works_of_ne (s : WorkerRun T) {worker other : Nat} (work : Work)
    (apart : other ≠ worker) : (s.put worker work).works other = s.works other :=
  Function.update_of_ne apart ..

/-- The ledger numbers the executions, and a delivery within the limit has a number within it. -/
structure Numbered (agent : AgentTaskWorker) (s : WorkerRun T) (l : Ledger Nat Nat) : Prop where
  sound : l.Sound agent.maxAttempts
  executions : s.executions = l.started.map Prod.fst
  delivered : ∀ worker d, s.works worker = .delivered d →
    ∃ number, l.inHand worker = some (d.message.publication, number) ∧
      (d.deliveryCount ≤ agent.maxAttempts → number ≤ agent.maxAttempts)

namespace Numbered
variable {agent : AgentTaskWorker} {s : WorkerRun T} {l : Ledger Nat Nat} {worker : Nat}
  {d : AgentMessageDelivery}

theorem idle (numbered : Numbered agent s l) (worker : Nat) :
    Numbered agent (s.put worker .idle) (l.drop worker) where
  sound := numbered.sound.drop worker
  executions := numbered.executions
  delivered other d work := by
    by_cases same : other = worker
    · simp [same] at work
    · rw [put_works_of_ne s _ same] at work
      obtain ⟨number, given, small⟩ := numbered.delivered other d work
      exact ⟨number, by simpa [Ledger.drop, same] using given, small⟩

/-- Only a delivery within the limit is handled, and then with its number. -/
theorem start (numbered : Numbered agent s l) (work : s.works worker = .delivered d)
    (small : d.deliveryCount ≤ agent.maxAttempts) :
    Numbered agent ({ s with executions := s.executions ++ [d.message.publication] }.put worker
      (.handling d)) (l.start worker) := by
  obtain ⟨number, given, counted⟩ := numbered.delivered worker d work
  constructor
  case sound =>
    refine numbered.sound.start fun a held => ?_
    cases given.symm.trans held
    exact counted small
  case executions => simp [WorkerRun.put, Ledger.start, given, numbered.executions]
  case delivered =>
    intro other d' work'
    by_cases same : other = worker
    · simp [same] at work'
    · rw [put_works_of_ne _ _ same] at work'
      obtain ⟨number, given, small⟩ := numbered.delivered other d' work'
      exact ⟨number, by simpa [Ledger.start, Ledger.drop, same] using given, small⟩

/-- A worker takes a new number; it may deliver at once or count first. -/
theorem issue (numbered : Numbered agent s l) (worker publication : Nat) {work : Work}
    (counts : ∀ d, work = .delivered d →
      d.message.publication = publication ∧
        (d.deliveryCount ≤ agent.maxAttempts → l.issued publication < agent.maxAttempts)) :
    Numbered agent (s.put worker work) (l.issue worker publication) where
  sound := numbered.sound.issue worker publication
  executions := numbered.executions
  delivered other d work' := by
    by_cases same : other = worker
    · subst same
      rw [put_works_self] at work'
      obtain ⟨rfl, within⟩ := counts d work'
      exact ⟨_, Function.update_self .., within⟩
    · rw [put_works_of_ne s _ same] at work'
      obtain ⟨number, given, small⟩ := numbered.delivered other d work'
      exact ⟨number, by simpa [Ledger.issue, same] using given, small⟩

/-- A worker counts the deliveries of the entry whose number it has in hand. -/
theorem counted (numbered : Numbered agent s l) {number : Nat}
    (given : l.inHand worker = some (d.message.publication, number))
    (within : d.deliveryCount ≤ agent.maxAttempts → number ≤ agent.maxAttempts) :
    Numbered agent (s.put worker (.delivered d)) l where
  sound := numbered.sound
  executions := numbered.executions
  delivered other d' work := by
    by_cases same : other = worker
    · subst same
      rw [put_works_self] at work
      cases work
      exact ⟨number, given, within⟩
    · rw [put_works_of_ne s _ same] at work
      exact numbered.delivered other d' work

theorem executions_le (numbered : Numbered agent s l) (publication : Nat) :
    s.executions.count publication ≤ agent.maxAttempts := by
  rw [numbered.executions]
  exact numbered.sound.count_le publication

end Numbered
end MapGo.Transport
