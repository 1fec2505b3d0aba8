import Mathlib

/-! Messages, deliveries and workers of the agent transports, for the channel of one receiver. Each
successful publish is a publication of its own. -/
namespace MapGo.Transport

structure AgentMessage where
  /-- History: the publication that the message belongs to. -/
  publication : Nat
  idempotencyKey : String
  attempt : Nat
  deriving DecidableEq, Repr

def AgentMessage.next (message : AgentMessage) : AgentMessage :=
  { message with attempt := message.attempt + 1 }

structure AgentMessageDelivery where
  message : AgentMessage
  receipt : Nat
  consumer : Nat
  deliveryCount : Nat
  reclaimed : Bool := false
  deriving DecidableEq, Repr

/-- The delivery goes to the dead letters when it is retried. -/
def AgentMessageDelivery.exhausted (d : AgentMessageDelivery) (maxAttempts : Nat) : Bool :=
  maxAttempts ≤ max d.message.attempt d.deliveryCount

structure DeadLetter where
  message : AgentMessage
  errorCode : String
  consumer : Nat
  deliveryCount : Nat
  deriving DecidableEq, Repr

/-- `_dead_letter_payload` -/
def deadLetterPayload (d : AgentMessageDelivery) (errorCode : String) : DeadLetter :=
  ⟨d.message, String.ofList (errorCode.toList.take 120), d.consumer, d.deliveryCount⟩

inductive Disposition where
  | retry | dlq
  deriving DecidableEq, Repr

/-- `AgentTaskWorker.__init__` -/
structure AgentTaskWorker where
  maxAttempts : Nat
  reclaimIdleMs : Nat
  attempts : 1 ≤ maxAttempts ∧ maxAttempts ≤ 5
  idle : 1000 ≤ reclaimIdleMs

end MapGo.Transport
