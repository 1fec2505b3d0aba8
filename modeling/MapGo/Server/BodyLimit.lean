import Mathlib

/-! The middleware that limits request bodies. It reads the whole body before it calls the
application, and hands it a receive channel of its own in place of the server's. -/
namespace MapGo.Server

/-- A message of the receive channel. -/
inductive Message where
  | request (body : List UInt8) (moreBody : Bool)
  | disconnect
  | other (type : String)
  deriving DecidableEq, Repr

structure Scope where
  type : String
  /-- Names and values, each byte as the character that latin-1 reads. -/
  headers : List (String × String)

/-- The response to a body over the limit. -/
structure PayloadTooLarge where
  statusCode : Nat := 413
  ok : Bool := false
  code : String := "PAYLOAD_TOO_LARGE"
  msg : String := "请求体过大"
  requestId : String
  deriving DecidableEq, Repr

/-- The variables that `limited_receive` closes over. -/
structure Channel where
  body : List UInt8
  disconnected : Bool
  delivered : Bool := false
  deriving DecidableEq, Repr

def Channel.limitedReceive (channel : Channel) : Message × Channel :=
  if channel.disconnected || channel.delivered then (.disconnect, channel)
  else (.request channel.body false, { channel with delivered := true })

/-- The answers to further calls of the application. -/
def Channel.replies (channel : Channel) : Nat → List Message
  | 0 => []
  | calls + 1 =>
      let (message, channel) := channel.limitedReceive
      message :: channel.replies calls

def requestIdOf (scope : Scope) : String :=
  ((scope.headers.find? fun header => header.1.toLower = "x-request-id").map fun header =>
    String.ofList (header.2.toList.take 100)).getD ""

/-- What a call of the middleware comes to; `reading` waits for the server's next message. -/
inductive Handling where
  | passedThrough
  | reading
  | rejected (response : PayloadTooLarge)
  | application (channel : Channel)
  deriving DecidableEq, Repr

/-- The loop over the messages of the server. -/
def readBody (maxBytes : Nat) (scope : Scope) (body : List UInt8) : List Message → Handling
  | [] => .reading
  | .disconnect :: _ => .application ⟨body, true, false⟩
  | .other _ :: rest => readBody maxBytes scope body rest
  | .request chunk moreBody :: rest =>
      if maxBytes < (body ++ chunk).length then .rejected { requestId := requestIdOf scope }
      else if moreBody then readBody maxBytes scope (body ++ chunk) rest
      else .application ⟨body ++ chunk, false, false⟩

/-- `RequestBodyLimitMiddleware.__call__` -/
def limitBody (maxBytes : Nat) (scope : Scope) (events : List Message) : Handling :=
  if scope.type ≠ "http" then .passedThrough else readBody maxBytes scope [] events

/-- The bytes of the body up to its end or a disconnect. -/
def arrived : List Message → List UInt8
  | [] => []
  | .disconnect :: _ => []
  | .other _ :: rest => arrived rest
  | .request chunk moreBody :: rest => chunk ++ if moreBody then arrived rest else []

inductive Ending where
  | complete
  | disconnected
  deriving DecidableEq, Repr

/-- How the body ends, once it does. -/
def ending : List Message → Option Ending
  | [] => none
  | .disconnect :: _ => some .disconnected
  | .other _ :: rest => ending rest
  | .request _ moreBody :: rest => if moreBody then ending rest else some .complete

/-- The bytes that the application is handed before a disconnect. -/
def handed : List Message → List UInt8
  | .request body _ :: rest => body ++ handed rest
  | .other _ :: rest => handed rest
  | .disconnect :: _ => []
  | [] => []

/-- The answers of the channel that the application is called with. -/
def Handling.replies (calls : Nat) : Handling → List Message
  | .application channel => channel.replies calls
  | _ => []

/-- What the application sees of an HTTP request is what the server sends. `gone` says of each
receive call of the application whether the server has reported a disconnect by then. -/
structure Transparent (maxBytes : Nat) (scope : Scope) (events : List Message) (gone : List Bool) :
    Prop where
  called : (∃ channel, limitBody maxBytes scope events = .application channel) ↔
    (ending events).isSome = true ∧ (arrived events).length ≤ maxBytes
  whole : ending events = some .complete → (arrived events).length ≤ maxBytes → gone ≠ [] →
    handed ((limitBody maxBytes scope events).replies gone.length) = arrived events
  untruncated : ∀ body, .request body false ∈
    (limitBody maxBytes scope events).replies gone.length →
    ending events = some .complete ∧ body = arrived events
  told : ∀ k : Nat,
    ((limitBody maxBytes scope events).replies gone.length)[k]? = some Message.disconnect →
    ending events = some .disconnected ∨ gone[k]? = some true

variable {maxBytes : Nat} {scope : Scope} {body : List UInt8} {events : List Message}

/-- What the body read so far comes to. -/
def Handling.ended (body : List UInt8) : Option Ending → Handling
  | none => .reading
  | some .complete => .application ⟨body, false, false⟩
  | some .disconnected => .application ⟨body, true, false⟩

/-- The loop rejects a body over the limit and otherwise hands over all of it. -/
theorem readBody_eq (fits : body.length ≤ maxBytes) : readBody maxBytes scope body events =
    if maxBytes < (body ++ arrived events).length then
      .rejected { requestId := requestIdOf scope }
    else .ended (body ++ arrived events) (ending events) := by
  induction events generalizing body with
  | nil =>
      rw [arrived, List.append_nil, if_neg (not_lt.mpr fits)]
      rfl
  | cons message rest ih =>
      cases message with
      | disconnect =>
          rw [arrived, List.append_nil, if_neg (not_lt.mpr fits)]
          rfl
      | other type => exact ih fits
      | request chunk moreBody =>
          rw [readBody, arrived, ← List.append_assoc]
          by_cases exceeds : maxBytes < (body ++ chunk).length
          · rw [if_pos exceeds, if_pos]
            rw [List.length_append]
            omega
          · rw [if_neg exceeds]
            cases moreBody with
            | true => exact ih (not_lt.mp exceeds)
            | false =>
                rw [if_neg Bool.false_ne_true, if_neg Bool.false_ne_true, List.append_nil,
                  if_neg exceeds]
                rfl

theorem limitBody_eq (http : scope.type = "http") : limitBody maxBytes scope events =
    if maxBytes < (arrived events).length then .rejected { requestId := requestIdOf scope }
    else .ended (arrived events) (ending events) := by
  rw [limitBody, if_neg (not_not.mpr http), readBody_eq (Nat.zero_le _), List.nil_append]

/-- A channel that is used up only says that the client is gone. -/
theorem replies_over {channel : Channel} (done : (channel.disconnected || channel.delivered) = true)
    (calls : Nat) : channel.replies calls = List.replicate calls .disconnect := by
  induction calls with
  | zero => rfl
  | succ calls ih =>
      rw [Channel.replies, Channel.limitedReceive, if_pos done]
      exact congrArg (Message.disconnect :: ·) ih

theorem replies_fresh (body : List UInt8) (calls : Nat) :
    Channel.replies ⟨body, false, false⟩ (calls + 1) =
      .request body false :: List.replicate calls .disconnect :=
  congrArg (Message.request body false :: ·) (replies_over rfl calls)

theorem handed_disconnects (calls : Nat) : handed (List.replicate calls .disconnect) = [] := by
  cases calls <;> rfl

/-- The middleware is transparent where the application makes no further receive call after the
body while the client is still connected. -/
theorem transparent_iff (maxBytes : Nat) (scope : Scope) (events : List Message)
    (gone : List Bool) (http : scope.type = "http") :
    Transparent maxBytes scope events gone ↔
      (ending events = some .complete → (arrived events).length ≤ maxBytes →
        ∀ k : Nat, 0 < k → k < gone.length → gone[k]? = some true) := by
  constructor
  · intro transparent complete fits k later called
    have answers : (limitBody maxBytes scope events).replies gone.length =
        .request (arrived events) false :: List.replicate (gone.length - 1) .disconnect := by
      rw [limitBody_eq http, if_neg (not_lt.mpr fits), complete]
      obtain ⟨calls, count⟩ := Nat.exists_eq_add_one.mpr (Nat.zero_lt_of_lt called)
      rw [count]
      exact replies_fresh _ calls
    have told := transparent.told k
    rw [answers, complete] at told
    obtain ⟨k, rfl⟩ := Nat.exists_eq_add_one.mpr later
    rw [List.getElem?_cons_succ, List.getElem?_replicate_of_lt (by omega)] at told
    exact (told rfl).resolve_left (by decide)
  · intro waits
    by_cases exceeds : maxBytes < (arrived events).length
    · have handling := (limitBody_eq http).trans (if_pos exceeds)
      constructor
      · rw [handling]
        refine iff_of_false (fun called => ?_) (fun fits => not_le.mpr exceeds fits.2)
        obtain ⟨channel, same⟩ := called
        contradiction
      · exact fun _ fits => absurd fits (not_le.mpr exceeds)
      · intro body member
        rw [handling] at member
        contradiction
      · intro k answer
        rw [handling] at answer
        contradiction
    · have handling := (limitBody_eq http).trans (if_neg exceeds)
      have fits := not_lt.mp exceeds
      cases ends : ending events with
      | none =>
          rw [ends] at handling
          constructor
          · rw [handling, ends]
            refine iff_of_false (fun called => ?_) (fun finished => Bool.false_ne_true finished.1)
            obtain ⟨channel, same⟩ := called
            contradiction
          · rw [ends]
            exact fun complete => absurd complete (by decide)
          · intro body member
            rw [handling] at member
            contradiction
          · intro k answer
            rw [handling] at answer
            contradiction
      | some how =>
          rw [ends] at handling
          cases how with
          | disconnected =>
              have answers : (limitBody maxBytes scope events).replies gone.length =
                  List.replicate gone.length .disconnect := by
                rw [handling]
                exact replies_over rfl _
              constructor
              · rw [handling, ends]
                exact iff_of_true ⟨_, rfl⟩ ⟨rfl, fits⟩
              · rw [ends]
                exact fun complete => absurd complete (by decide)
              · intro body member
                rw [answers] at member
                exact absurd (List.eq_of_mem_replicate member) (by simp)
              · exact fun _ _ => .inl ends
          | complete =>
              constructor
              · rw [handling, ends]
                exact iff_of_true ⟨_, rfl⟩ ⟨rfl, fits⟩
              · intro _ _ called
                obtain ⟨calls, count⟩ := Nat.exists_eq_add_one.mpr (List.length_pos_iff.mpr called)
                rw [handling, count]
                have answers := replies_fresh (arrived events) calls
                rw [Handling.ended, Handling.replies, answers, handed, handed_disconnects,
                  List.append_nil]
              · intro body member
                rw [handling] at member
                cases count : gone.length with
                | zero =>
                    rw [count] at member
                    contradiction
                | succ calls =>
                    rw [count, Handling.ended, Handling.replies, replies_fresh] at member
                    rcases List.mem_cons.mp member with same | later
                    · exact ⟨ends, (Message.request.inj same).1⟩
                    · exact absurd (List.eq_of_mem_replicate later) (by simp)
              · intro k answer
                right
                rw [handling] at answer
                cases count : gone.length with
                | zero =>
                    rw [count] at answer
                    contradiction
                | succ calls =>
                    rw [count, Handling.ended, Handling.replies, replies_fresh] at answer
                    cases k with
                    | zero => exact absurd (Option.some.inj answer) (by simp)
                    | succ k =>
                        have inside := (List.getElem?_eq_some_iff.mp answer).1
                        rw [List.length_cons, List.length_replicate] at inside
                        exact waits ends fits (k + 1) (Nat.succ_pos k) (by omega)

/-- A request whose body comes in two chunks and whose client then stays. -/
def chunked : List Message := [.request [1, 2] true, .request [] true, .request [3] false]

def post : Scope := { type := "http", headers := [] }

theorem transparent_iff_read : Transparent 16 post chunked [false] := by
  apply (transparent_iff 16 post chunked [false] rfl).mpr
  intro _ _ k later called
  rw [List.length_singleton] at called
  omega

/-- A second receive call is told that the client is gone while it is connected. -/
theorem told_of_no_disconnect : ¬ Transparent 16 post chunked [false, false] := by
  intro transparent
  have answer : ((limitBody 16 post chunked).replies 2)[1]? = some Message.disconnect := by decide
  rcases transparent.told 1 answer with cut | gone
  · exact absurd cut (by decide)
  · exact absurd gone (by decide)

end MapGo.Server
