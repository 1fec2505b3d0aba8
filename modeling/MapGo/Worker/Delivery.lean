import MapGo.Worker.Process

/-! Delivery of trip events. A handler owes its message to the processing list
until it has settled the event or stored another copy. Recovery at startup
takes messages that running handlers still hold, and a handler that is then
fenced off acknowledges the copy of its successor. Nothing is lost in runs
whose recoveries leave every running handler its copy. -/
namespace MapGo.Worker
open Transition

namespace Phase

/-- The message a handler will acknowledge or leave in the processing list. -/
def payload : Phase → Option Payload
  | .down | .idle => none
  | .reserved p | .contended p | .holding _ p _ _ | .failing p _ _ | .releasing p _ _
  | .acknowledging p => some p

/-- A handler that cannot return before the event is settled or copied again. -/
def Carries (sh : Shared) (event : Nat) : Phase → Prop
  | .reserved p | .contended p | .failing p _ _ | .releasing p _ false
  | .holding .running p _ _ => p.eventId = event
  | .holding _ p token _ => p.eventId = event ∧
      ∀ row, sh.events event = some row → row.workerFencingToken < token.fence
  | _ => False

theorem Carries.payload {phase : Phase} (carried : phase.Carries sh event) :
    ∃ p, phase.payload = some p ∧ p.eventId = event := by
  unfold Carries at carried
  split at carried
  all_goals first
    | contradiction
    | exact ⟨_, rfl, carried⟩
    | exact ⟨_, rfl, carried.1⟩

/-- Only the comparison with the row's token depends on the database. -/
theorem Carries.mono {phase : Phase} (carried : phase.Carries sh event)
    (rows : ∀ row', sh'.events event = some row' →
      ∃ row, sh.events event = some row ∧ row.workerFencingToken = row'.workerFencingToken) :
    phase.Carries sh' event := by
  unfold Carries at carried ⊢
  split at carried
  case h_6 =>
    refine ⟨carried.1, fun row' found => ?_⟩
    obtain ⟨row, old, same⟩ := rows row' found
    exact same ▸ carried.2 row old
  all_goals exact carried

end Phase

namespace Shared

def Settled (sh : Shared) (event : Nat) : Prop :=
  ∃ row, sh.events event = some row ∧
    (row.status = .workerProcessed ∨ sh.trips row.tripId = false)

/-- The message names a row and the trip of that row. -/
def Names (sh : Shared) (p : Payload) : Prop :=
  ∃ row, sh.events p.eventId = some row ∧ row.tripId = p.tripId

/-- The database after a move of one process: a claim, the final commit, or no change. -/
inductive Rewrites (sh : Shared) : Phase → Shared → Prop where
  | same (events : sh'.events = sh.events) (trips : sh'.trips = sh.trips) : Rewrites sh phase sh'
  | claim (found : sh.findEvent payload.eventId = some row)
      (unsettled : row.status ≠ .workerProcessed) (lower : row.workerFencingToken < token.fence)
      (events : sh'.events = Function.update sh.events payload.eventId
        (some { row with status := .workerProcessing, workerFencingToken := token.fence }))
      (trips : sh'.trips = sh.trips) :
      Rewrites sh (.holding .running payload token lost) sh'
  | finish (found : sh.findEvent event = some row)
      (events : sh'.events = Function.update sh.events event
        (some { row with status := .workerProcessed }))
      (trips : sh'.trips = sh.trips) : Rewrites sh phase sh'

variable {sh sh' : Shared}

theorem Rewrites.settled (rewrites : sh.Rewrites phase sh') (settled : sh.Settled event) :
    sh'.Settled event := by
  obtain ⟨row, found, done⟩ := settled
  cases rewrites with
  | same events trips => exact ⟨row, events ▸ found, trips ▸ done⟩
  | @claim old payload token lost sh' read unsettled lower events trips =>
      obtain ⟨current, alive⟩ := findEvent_some.mp read
      by_cases same : event = payload.eventId
      · subst same
        obtain rfl := Option.some.inj (current.symm.trans found)
        simp [unsettled, alive] at done
      · exact ⟨row, by rw [events, Function.update_of_ne same, found], trips ▸ done⟩
  | @finish event' old sh' phase read events trips =>
      obtain ⟨current, -⟩ := findEvent_some.mp read
      by_cases same : event = event'
      · subst same
        exact ⟨_, by rw [events, Function.update_self], .inl rfl⟩
      · exact ⟨row, by rw [events, Function.update_of_ne same, found], trips ▸ done⟩

/-- Moves never change the trip of a row. -/
theorem Rewrites.names (rewrites : sh.Rewrites phase sh') (names : sh.Names p) :
    sh'.Names p := by
  obtain ⟨row, found, same⟩ := names
  have keep {event : Nat} {old row' : TripEvent} (read : sh.findEvent event = some old)
      (events : sh'.events = Function.update sh.events event (some row'))
      (trip : row'.tripId = old.tripId) : sh'.Names p := by
    obtain ⟨current, -⟩ := findEvent_some.mp read
    by_cases here : p.eventId = event
    · subst here
      obtain rfl := Option.some.inj (current.symm.trans found)
      exact ⟨row', by rw [events, Function.update_self], trip.trans same⟩
    · exact ⟨row, by rw [events, Function.update_of_ne here, found], same⟩
  cases rewrites with
  | same events => exact ⟨row, events ▸ found, same⟩
  | claim read _ _ events => exact keep read events rfl
  | finish read events => exact keep read events rfl

/-- A claim that overtakes another handler carries the event itself. -/
theorem Rewrites.carries {other : Phase} (rewrites : sh.Rewrites phase sh')
    (carried : other.Carries sh event) : other.Carries sh' event ∨ phase.Carries sh' event := by
  cases rewrites with
  | same events => exact .inl (carried.mono fun row' found => ⟨row', events ▸ found, rfl⟩)
  | @claim old payload token lost sh' read unsettled lower events trips =>
      by_cases same : event = payload.eventId
      · exact .inr same.symm
      · refine .inl (carried.mono fun row' found => ⟨row', ?_, rfl⟩)
        rwa [events, Function.update_of_ne same] at found
  | @finish event' old sh' phase read events trips =>
      refine .inl (carried.mono fun row' found => ?_)
      obtain ⟨rfl, rfl⟩ | ⟨-, found⟩ := update_row (events ▸ found)
      · exact ⟨old, (findEvent_some.mp read).1, rfl⟩
      · exact ⟨row', found, rfl⟩

end Shared

theorem Advances.rewrites (moved : Advances cfg sh phase move sh' phase') :
    sh.Rewrites phase' sh' := by
  cases moved with
  | claimed took =>
      obtain ⟨row, found, unsettled, lower, rfl⟩ := Shared.claimWorkerFence_some took
      exact .claim found unsettled lower rfl rfl
  | committed passed =>
      obtain ⟨-, row, -, -, rfl⟩ := Shared.guardedCommit_some passed
      exact .same rfl rfl
  | finished passed =>
      obtain ⟨-, row, found, -, rfl⟩ := Shared.guardedCommit_some passed
      exact .finish found rfl rfl
  | _ => exact .same rfl rfl

/-- What a move does to the processing list and to the message its handler holds. -/
inductive Custody (limit : Nat) (sh : Shared) (phase : Phase) (move : Move) :
    Shared → Phase → Prop where
  | keep (list : sh'.store.processing = sh.store.processing)
      (same : phase'.payload = phase.payload) : Custody limit sh phase move sh' phase'
  | leave (list : sh'.store.processing = sh.store.processing) (free : phase'.payload = none) :
      Custody limit sh phase move sh' phase'
  | take (free : phase.payload = none) (held : phase'.payload = some p)
      (list : sh'.store.processing = p :: sh.store.processing) : Custody limit sh phase move sh' phase'
  | drop (held : phase.payload = some p) (free : phase'.payload = none)
      (list : sh'.store.processing = sh.store.processing.erase p) : Custody limit sh phase move sh' phase'
  | recover (start : move = .start) (free : phase.payload = none) (still : phase'.payload = none)
      (list : sh'.store.processing = sh.store.processing.rdrop limit)
      (queue : sh'.store.queue = sh.store.processing.rtake limit ++ sh.store.queue) :
      Custody limit sh phase move sh' phase'

theorem Advances.custody (moved : Advances cfg sh phase move sh' phase') :
    Custody cfg.workerRecoverProcessingLimit sh phase move sh' phase' := by
  cases moved with
  | started =>
      exact .recover rfl rfl rfl (by rw [RedisStore.recoverProcessing_eq])
        (by rw [RedisStore.recoverProcessing_eq])
  | reserved popped =>
      obtain ⟨-, rfl⟩ := RedisStore.reserve_split popped
      exact .take rfl rfl rfl
  | acquired got => exact .keep (RedisStore.acquireLock_some got).2.2.2.1 rfl
  | @postponed payload | @retried payload =>
      refine .keep ?_ rfl
      obtain dead | delayed := RedisStore.enqueueRetry_split sh.store payload (payload.attempt + 1) _
      · rw [dead]
      · rw [delayed]
  | claimed took =>
      obtain ⟨_, _, _, _, rfl⟩ := Shared.claimWorkerFence_some took
      exact .keep rfl rfl
  | committed passed | finished passed =>
      obtain ⟨_, _, _, _, rfl⟩ := Shared.guardedCommit_some passed
      exact .keep rfl rfl
  | renewed | renewedFailing =>
      refine .keep ?_ rfl
      obtain ⟨locks, renewed⟩ := RedisStore.renewLock_locks sh.store
      rw [renewed]
  | @released payload token handled =>
      obtain ⟨locks, released⟩ := RedisStore.releaseLock_locks sh.store
      cases handled
      · exact .leave (by rw [released]) rfl
      · exact .keep (by rw [released]) rfl
  | acknowledged => exact .drop rfl rfl rfl
  | abandoned | crashed => exact .leave rfl rfl
  | _ => exact .keep rfl rfl

/-- A waiting message stays waiting or is the one the moving process has reserved. -/
theorem Advances.waiting (moved : Advances cfg sh phase move sh' phase')
    (waiting : sh.store.Waiting event) : sh'.store.Waiting event ∨ phase'.Carries sh' event := by
  cases moved with
  | started =>
      obtain ⟨p, same, ready | rest⟩ := waiting
      · exact .inl ⟨p, same, .inl (by
          rw [RedisStore.recoverProcessing_eq]
          exact List.mem_append_right _ ready)⟩
      · exact .inl ⟨p, same, .inr (by rwa [RedisStore.recoverProcessing_eq])⟩
  | promoted => exact .inl (RedisStore.waiting_promoteRetries waiting)
  | reserved popped => exact (RedisStore.waiting_reserve popped waiting).symm
  | acquired got =>
      obtain ⟨-, -, queue, -, retry, dlq⟩ := RedisStore.acquireLock_some got
      obtain ⟨p, same, held⟩ := waiting
      exact .inl ⟨p, same, by rwa [queue, retry, dlq]⟩
  | postponed | retried => exact .inl (RedisStore.waiting_enqueueRetry waiting)
  | claimed took =>
      obtain ⟨_, _, _, _, rfl⟩ := Shared.claimWorkerFence_some took
      exact .inl waiting
  | committed passed | finished passed =>
      obtain ⟨_, _, _, _, rfl⟩ := Shared.guardedCommit_some passed
      exact .inl waiting
  | renewed | renewedFailing =>
      obtain ⟨locks, renewed⟩ := RedisStore.renewLock_locks sh.store
      exact .inl (by rw [renewed]; exact waiting)
  | released =>
      obtain ⟨locks, released⟩ := RedisStore.releaseLock_locks sh.store
      exact .inl (by rw [released]; exact waiting)
  | _ => exact .inl waiting

/-- A handler that carries an event goes on carrying it, settles it, stores
another copy, or ends without acknowledging its own. -/
theorem Advances.carries (moved : Advances cfg sh phase move sh' phase')
    (names : ∀ p, phase.payload = some p → sh.Names p)
    (fences : ∀ event row, sh.events event = some row →
      row.workerFencingToken ≤ sh.store.lockFences row.tripId)
    (carried : phase.Carries sh event) :
    phase'.Carries sh' event ∨ sh'.Settled event ∨ sh'.store.Waiting event ∨
      sh'.store.processing = sh.store.processing ∧ phase'.payload = none := by
  obtain ⟨p, held, same⟩ := carried.payload
  cases moved with
  | started | promoted | reserved => contradiction
  | acquired got =>
      cases held
      obtain ⟨row, found, trip⟩ := names _ rfl
      refine .inl ⟨same, fun row' found' => ?_⟩
      obtain rfl := Option.some.inj (found.symm.trans (same ▸ found'))
      have bound := fences _ row found
      rw [trip] at bound
      rw [(RedisStore.acquireLock_some got).1]
      omega
  | postponed | retried =>
      cases held
      exact .inr (.inr (.inl (same ▸ RedisStore.enqueueRetry_waiting sh.store p)))
  | settled processed =>
      cases held
      obtain ⟨row, found, trip⟩ := names _ rfl
      refine .inr (.inl ⟨row, same ▸ found, ?_⟩)
      by_cases alive : sh.trips row.tripId = true
      · exact .inl (processed row (Shared.findEvent_some.mpr ⟨found, alive⟩) (trip ▸ alive))
      · exact .inr (by simpa using alive)
  | loaded | owned | contended | lostFailing | renewedFailing | unhandled => exact .inl carried
  | claimed took => exact .inl carried.1
  | fenced refused =>
      cases held
      obtain ⟨row, found, -⟩ := names _ rfl
      refine .inr (.inl ⟨row, same ▸ found, ?_⟩)
      by_cases alive : sh.trips row.tripId = true
      · have read := Shared.findEvent_some.mpr ⟨found, alive⟩
        obtain processed | overtaken := Shared.claimWorkerFence_none refused read
        · exact .inl processed
        · have lower := carried.2 row (same ▸ found)
          omega
      · exact .inr (by simpa using alive)
  | committed passed =>
      cases held
      exact .inl same
  | finished passed =>
      cases held
      obtain ⟨-, row, found, -, rfl⟩ := Shared.guardedCommit_some passed
      subst same
      exact .inr (.inl ⟨_, Function.update_self .., .inl rfl⟩)
  | failed | cancelled =>
      cases held
      exact .inl same
  | @renewed stage | @lostLease stage =>
      refine .inl ?_
      cases stage <;> exact carried
  | @released payload token handled =>
      obtain ⟨locks, released⟩ := RedisStore.releaseLock_locks sh.store
      cases handled
      · exact .inr (.inr (.inr ⟨by rw [released], rfl⟩))
      · exact carried.elim
  | acknowledged => exact carried.elim
  | abandoned | crashed => exact .inr (.inr (.inr ⟨rfl, rfl⟩))

/-- The store takes messages in only from handlers; retries keep event and trip. -/
theorem Advances.holds (moved : Advances cfg sh phase move sh' phase')
    (held : sh'.store.Holds p) : sh.store.Holds p ∨
      ∃ q, phase.payload = some q ∧ q.eventId = p.eventId ∧ q.tripId = p.tripId := by
  cases moved with
  | started => exact .inl (RedisStore.holds_recoverProcessing held)
  | promoted => exact .inl (RedisStore.holds_promoteRetries held)
  | reserved popped => exact .inl (RedisStore.holds_reserve popped held)
  | acquired got =>
      obtain ⟨-, -, queue, processing, retry, -⟩ := RedisStore.acquireLock_some got
      exact .inl (by simpa [RedisStore.Holds, queue, processing, retry] using held)
  | postponed | retried =>
      exact (RedisStore.holds_enqueueRetry held).imp_right fun same => ⟨_, rfl, same⟩
  | claimed took =>
      obtain ⟨_, _, _, _, rfl⟩ := Shared.claimWorkerFence_some took
      exact .inl held
  | committed passed | finished passed =>
      obtain ⟨_, _, _, _, rfl⟩ := Shared.guardedCommit_some passed
      exact .inl held
  | renewed | renewedFailing =>
      obtain ⟨locks, renewed⟩ := RedisStore.renewLock_locks sh.store
      exact .inl (by rw [renewed] at held; exact held)
  | released =>
      obtain ⟨locks, released⟩ := RedisStore.releaseLock_locks sh.store
      exact .inl (by rw [released] at held; exact held)
  | acknowledged => exact .inl (held.imp_right (.imp_right List.mem_of_mem_erase))
  | _ => exact .inl held

theorem Advances.lockFences (moved : Advances cfg sh phase move sh' phase') (trip : Nat) :
    sh.store.lockFences trip ≤ sh'.store.lockFences trip := by
  cases moved with
  | started => rw [RedisStore.recoverProcessing_eq]
  | reserved popped =>
      obtain ⟨-, rfl⟩ := RedisStore.reserve_split popped
      exact Nat.le_refl _
  | acquired got =>
      rw [(RedisStore.acquireLock_some got).2.1, Function.update_apply]
      split
      · rename_i same
        exact same ▸ Nat.le_succ _
      · exact Nat.le_refl _
  | @postponed payload | @retried payload =>
      obtain dead | delayed := RedisStore.enqueueRetry_split sh.store payload (payload.attempt + 1) _
      · rw [dead]
      · rw [delayed]
  | claimed took =>
      obtain ⟨_, _, _, _, rfl⟩ := Shared.claimWorkerFence_some took
      exact Nat.le_refl _
  | committed passed | finished passed =>
      obtain ⟨_, _, _, _, rfl⟩ := Shared.guardedCommit_some passed
      exact Nat.le_refl _
  | renewed | renewedFailing =>
      obtain ⟨locks, renewed⟩ := RedisStore.renewLock_locks sh.store
      rw [renewed]
  | released =>
      obtain ⟨locks, released⟩ := RedisStore.releaseLock_locks sh.store
      rw [released]
  | _ => exact Nat.le_refl _

/-- A token in use was issued for the trip of its message. -/
theorem Advances.issued (moved : Advances cfg sh phase move sh' (.holding stage p token lost)) :
    token.fence ≤ sh'.store.lockFences p.tripId ∨
      ∃ stage' lost', phase = .holding stage' p token lost' := by
  generalize now : Phase.holding stage p token lost = phase' at moved
  cases moved with
  | acquired got =>
      cases now
      obtain ⟨fence, fences, -⟩ := RedisStore.acquireLock_some got
      exact .inl (by simp [fence, fences])
  | @released payload token handled => cases handled <;> contradiction
  | loaded | owned | claimed | committed | renewed | lostLease =>
      cases now
      exact .inr ⟨_, _, rfl⟩
  | _ => contradiction

namespace System

def holders (s : System) (p : Payload) : Nat := s.workers.countP (fun phase => phase.payload = some p)

theorem holders_set {s : System} (sh : Shared) (phase' : Phase) (p : Payload)
    (at_ : s.workers[index]? = some phase) :
    holders ⟨sh, s.workers.set index phase'⟩ p + (if phase.payload = some p then 1 else 0) =
      s.holders p + if phase'.payload = some p then 1 else 0 := by
  obtain ⟨inside, rfl⟩ := List.getElem?_eq_some_iff.mp at_
  have counted := List.countP_set (p := fun phase : Phase => phase.payload = some p)
    (a := phase') inside
  have some_ : (if s.workers[index].payload = some p then 1 else 0) ≤ s.holders p := by
    split
    · rename_i held
      exact List.countP_pos_iff.mpr ⟨_, List.getElem_mem inside, by simpa using held⟩
    · exact Nat.zero_le _
  simp only [holders, decide_eq_true_eq] at counted some_ ⊢
  omega

/-- Every handler has its message in the processing list; messages name rows. -/
structure Kept (s : System) : Prop where
  copies : ∀ p, s.holders p ≤ s.shared.store.processing.count p
  names : s.shared.store.Holds p → s.shared.Names p

/-- Fences bound the tokens of rows and handlers. -/
structure Tracked (s : System) : Prop extends Kept s where
  fences : ∀ event row, s.shared.events event = some row →
    row.workerFencingToken ≤ s.shared.store.lockFences row.tripId
  issued : ∀ {index : Nat}, s.workers[index]? = some (.holding stage p token lost) →
    token.fence ≤ s.shared.store.lockFences p.tripId

/-- Startup recovery leaves in the processing list a copy for every handler. -/
def RecoversOrphans (cfg : Settings) (s : System) : Action → Prop
  | .worker _ .start => ∀ p, s.holders p ≤
      (s.shared.store.processing.rdrop cfg.workerRecoverProcessingLimit).count p
  | _ => True

def Covered (s : System) (event : Nat) : Prop :=
  s.shared.Settled event ∨ s.shared.store.Waiting event ∨
    (∃ p : Payload, p.eventId = event ∧ s.holders p < s.shared.store.processing.count p) ∨
    ∃ (index : Nat) (phase : Phase), s.workers[index]? = some phase ∧ phase.Carries s.shared event

theorem Initial.tracked (start : System.Initial s) : Tracked s := by
  obtain ⟨queue, processing, retry, _, _, _, events, _, down⟩ := start
  have free : ∀ p, s.holders p = 0 := fun p => List.countP_eq_zero.mpr fun phase member => by
    simp [down phase member, Phase.payload]
  refine ⟨⟨fun p => by simp [free], fun held => ?_⟩, by simp [events], fun at_ => ?_⟩
  · simp [RedisStore.Holds, queue, processing, retry] at held
  · simpa using down _ (List.mem_of_getElem? at_)

theorem Kept.held {phase : Phase} {index : Nat} (kept : Kept s) (at_ : s.workers[index]? = some phase)
    (held : phase.payload = some p) :
    0 < s.holders p ∧ p ∈ s.shared.store.processing ∧ s.shared.Names p := by
  have some_ : 0 < s.holders p :=
    List.countP_pos_iff.mpr ⟨phase, List.mem_of_getElem? at_, by simpa using held⟩
  have member := List.count_pos_iff.mp (some_.trans_le (kept.copies p))
  exact ⟨some_, member, kept.names (.inr (.inr member))⟩

variable {phase phase' : Phase}

theorem Kept.moved (kept : Kept s) (at_ : s.workers[index]? = some phase)
    (moved : Advances cfg s.shared phase move sh phase')
    (orphans : s.RecoversOrphans cfg (.worker index move)) :
    Kept ⟨sh, s.workers.set index phase'⟩ := by
  refine ⟨fun p => ?_, fun {p} held => ?_⟩
  · have counted := holders_set sh phase' p at_
    have before := kept.copies p
    cases moved.custody with
    | keep list same =>
        simp only [list, same] at counted ⊢
        omega
    | leave list free =>
        simp only [list, free, reduceCtorEq, if_false] at counted ⊢
        omega
    | @take q _ _ free held list =>
        simp only [list, free, held, reduceCtorEq, if_false, Option.some.injEq,
          List.count_cons, beq_iff_eq] at counted ⊢
        omega
    | @drop q _ _ held free list =>
        simp only [list, free, held, reduceCtorEq, if_false, Option.some.injEq,
          List.count_erase, beq_iff_eq] at counted ⊢
        omega
    | recover start free still list _ =>
        subst start
        have left := orphans p
        simp only [list, free, still, reduceCtorEq, if_false] at counted ⊢
        omega
  · refine moved.rewrites.names ?_
    obtain old | ⟨q, had, event, trip⟩ := moved.holds held
    · exact kept.names old
    · obtain ⟨row, found, same⟩ := (kept.held at_ had).2.2
      exact ⟨row, event ▸ found, same.trans trip⟩

theorem Tracked.moved (inv : Tracked s) (at_ : s.workers[index]? = some phase)
    (moved : Advances cfg s.shared phase move sh phase')
    (orphans : s.RecoversOrphans cfg (.worker index move)) :
    Tracked ⟨sh, s.workers.set index phase'⟩ := by
  have kept := inv.toKept.moved at_ moved orphans
  have inside := (List.getElem?_eq_some_iff.mp at_).1
  have issued : ∀ {stage p token lost}, phase' = .holding stage p token lost →
      token.fence ≤ sh.store.lockFences p.tripId := by
    rintro stage p token lost rfl
    obtain new | ⟨_, _, rfl⟩ := moved.issued
    · exact new
    · exact (inv.issued at_).trans (moved.lockFences _)
  refine ⟨kept, fun event row found => ?_, fun {stage p token lost other} now => ?_⟩
  · have old : ∀ row', s.shared.events event = some row' →
        row'.workerFencingToken ≤ sh.store.lockFences row'.tripId :=
      fun row' found' => (inv.fences event row' found').trans (moved.lockFences _)
    cases moved.rewrites with
    | same events => exact old row (events ▸ found)
    | claim read _ _ events =>
        obtain ⟨rfl, rfl⟩ | ⟨-, found'⟩ := update_row (events ▸ found)
        · obtain ⟨row', found', trip⟩ :=
            (kept.held (List.getElem?_set_self inside) rfl).2.2
          obtain rfl := Option.some.inj (found.symm.trans found')
          exact trip ▸ issued rfl
        · exact old row found'
    | finish read events =>
        obtain ⟨rfl, rfl⟩ | ⟨-, found'⟩ := update_row (events ▸ found)
        · have bound := old _ (Shared.findEvent_some.mp read).1
          exact bound
        · exact old row found'
  · by_cases here : other = index
    · subst here
      exact issued (Option.some.inj ((List.getElem?_set_self inside).symm.trans now))
    · rw [List.getElem?_set_ne (Ne.symm here)] at now
      exact (inv.issued now).trans (moved.lockFences _)

theorem Covered.moved (inv : Tracked s) (covered : Covered s event)
    (at_ : s.workers[index]? = some phase)
    (moved : Advances cfg s.shared phase move sh phase') :
    Covered ⟨sh, s.workers.set index phase'⟩ event := by
  have inside := (List.getElem?_eq_some_iff.mp at_).1
  have mover (carried : phase'.Carries sh event) :
      Covered ⟨sh, s.workers.set index phase'⟩ event :=
    .inr (.inr (.inr ⟨index, phase', List.getElem?_set_self inside, carried⟩))
  obtain settled | waiting | ⟨p, same, spare⟩ | ⟨other, carrier, there, carried⟩ := covered
  · exact .inl (moved.rewrites.settled settled)
  · obtain waiting | carried := moved.waiting waiting
    · exact .inr (.inl waiting)
    · exact mover carried
  · have counted := holders_set sh phase' p at_
    have stays (spare : holders ⟨sh, s.workers.set index phase'⟩ p < sh.store.processing.count p) :
        Covered ⟨sh, s.workers.set index phase'⟩ event := .inr (.inr (.inl ⟨p, same, spare⟩))
    cases moved.custody with
    | keep list same =>
        simp only [same] at counted
        exact stays (by rw [list]; omega)
    | leave list free =>
        simp only [free, reduceCtorEq, if_false] at counted
        exact stays (by rw [list]; omega)
    | take free held list =>
        simp only [free, held, reduceCtorEq, if_false, Option.some.injEq] at counted
        exact stays (by simp only [list, List.count_cons, beq_iff_eq]; omega)
    | drop held free list =>
        simp only [free, held, reduceCtorEq, if_false, Option.some.injEq] at counted
        exact stays (by simp only [list, List.count_erase, beq_iff_eq]; omega)
    | recover start free still list queue =>
        simp only [free, still, reduceCtorEq, if_false] at counted
        have split := congrArg (List.count p) (List.take_append_drop
          (s.shared.store.processing.length - cfg.workerRecoverProcessingLimit)
          s.shared.store.processing)
        rw [List.count_append] at split
        by_cases kept : s.holders p < sh.store.processing.count p
        · exact stays (by omega)
        · have returned : p ∈ s.shared.store.processing.rtake cfg.workerRecoverProcessingLimit := by
            rw [list, List.rdrop] at kept
            exact List.count_pos_iff.mp (by rw [List.rtake]; omega)
          exact .inr (.inl ⟨p, same, .inl (queue ▸ List.mem_append_left _ returned)⟩)
  · by_cases here : other = index
    · subst here
      obtain rfl := Option.some.inj (at_.symm.trans there)
      obtain ⟨p, held, same⟩ := carried.payload
      obtain carried | settled | waiting | ⟨list, free⟩ := moved.carries
        (fun q had => (inv.toKept.held at_ had).2.2) inv.fences carried
      · exact mover carried
      · exact .inl settled
      · exact .inr (.inl waiting)
      · refine .inr (.inr (.inl ⟨p, same, ?_⟩))
        have counted := holders_set sh phase' p at_
        have before := inv.copies p
        simp only [held, free, reduceCtorEq, if_true, if_false] at counted
        simp only [list]
        omega
    · obtain carried | carried := moved.rewrites.carries carried
      · refine .inr (.inr (.inr ⟨other, carrier, ?_, carried⟩))
        rwa [List.getElem?_set_ne (Ne.symm here)]
      · exact mover carried

theorem Tracked.step (inv : Tracked s) (orphans : s.RecoversOrphans cfg a)
    (stepped : System.step cfg s a = some t) : Tracked t := by
  cases a with
  | tick seconds =>
      cases Option.some.inj stepped
      exact ⟨⟨inv.copies, inv.names⟩, inv.fences, inv.issued⟩
  | createEvent event trip =>
      simp only [System.step] at stepped
      split at stepped
      · rename_i free
        cases Option.some.inj stepped
        refine ⟨⟨inv.copies, fun held => ?_⟩, fun event' row found => ?_, inv.issued⟩
        · obtain ⟨row, found, same⟩ := inv.names held
          exact ⟨row, update_fresh (Option.isNone_iff_eq_none.mp free.1) found, same⟩
        · obtain ⟨rfl, rfl⟩ | ⟨-, old⟩ := update_row found
          · exact Nat.zero_le _
          · exact inv.fences _ _ old
      · contradiction
  | enqueue payload =>
      simp only [System.step] at stepped
      split at stepped
      · contradiction
      · rename_i row found
        split at stepped
        · rename_i fits
          cases Option.some.inj stepped
          refine ⟨⟨inv.copies, fun {p} held => ?_⟩, inv.fences, inv.issued⟩
          obtain new | rest := held
          · obtain rfl | old := List.mem_cons.mp new
            · exact ⟨row, (Shared.findEvent_some.mp found).1, fits.1⟩
            · exact inv.names (.inl old)
          · exact inv.names (.inr rest)
        · contradiction
  | deleteTrip trip =>
      cases Option.some.inj stepped
      exact ⟨⟨inv.copies, inv.names⟩, inv.fences, inv.issued⟩
  | worker index move =>
      obtain ⟨phase, sh, phase', at_, moved, rfl⟩ := System.step_worker stepped
      exact inv.moved at_ moved orphans

theorem Covered.step (inv : Tracked s) (covered : Covered s event)
    (stepped : System.step cfg s a = some t) : Covered t event := by
  cases a with
  | tick seconds =>
      cases Option.some.inj stepped
      exact covered
  | createEvent new trip =>
      simp only [System.step] at stepped
      split at stepped
      · rename_i free
        cases Option.some.inj stepped
        -- A new row has no handler yet, and no message names it.
        have old {row} (found : s.shared.events event = some row) :
            Function.update s.shared.events new (some ⟨trip, .processed, 0⟩) event = some row :=
          update_fresh (Option.isNone_iff_eq_none.mp free.1) found
        obtain ⟨row, found, done⟩ | waiting | spare | ⟨index, phase, at_, carried⟩ := covered
        · exact .inl ⟨row, old found, done⟩
        · exact .inr (.inl waiting)
        · exact .inr (.inr (.inl spare))
        · obtain ⟨p, held, same⟩ := carried.payload
          obtain ⟨row, found, -⟩ := (inv.toKept.held at_ held).2.2
          refine .inr (.inr (.inr ⟨index, phase, at_, carried.mono fun row' found' => ?_⟩))
          have same' := old (same ▸ found)
          exact ⟨row, same ▸ found, by rw [Option.some.inj (same'.symm.trans found')]⟩
      · contradiction
  | enqueue payload =>
      simp only [System.step] at stepped
      split at stepped
      · contradiction
      · split at stepped
        · cases Option.some.inj stepped
          obtain settled | ⟨p, same, ready | rest⟩ | spare | carrier := covered
          · exact .inl settled
          · exact .inr (.inl ⟨p, same, .inl (List.mem_cons_of_mem _ ready)⟩)
          · exact .inr (.inl ⟨p, same, .inr rest⟩)
          · exact .inr (.inr (.inl spare))
          · exact .inr (.inr (.inr carrier))
        · contradiction
  | deleteTrip trip =>
      cases Option.some.inj stepped
      obtain ⟨row, found, done⟩ | waiting | spare | ⟨index, phase, at_, carried⟩ := covered
      · refine .inl ⟨row, found, done.imp_right fun gone => ?_⟩
        by_cases same : row.tripId = trip
        · simp [same]
        · simpa [same] using gone
      · exact .inr (.inl waiting)
      · exact .inr (.inr (.inl spare))
      · exact .inr (.inr (.inr ⟨index, phase, at_, carried.mono fun row found => ⟨row, found, rfl⟩⟩))
  | worker index move =>
      obtain ⟨phase, sh, phase', at_, moved, rfl⟩ := System.step_worker stepped
      exact covered.moved inv at_ moved

/-- A message for the event is somewhere in the store, or nothing is left to do. -/
def Delivered (s : System) (event : Nat) : Prop :=
  s.shared.Settled event ∨ ∃ p : Payload, p.eventId = event ∧
    (p ∈ s.shared.store.queue ∨ p ∈ s.shared.store.processing ∨
      (∃ score, (p, score) ∈ s.shared.store.retry) ∨ p ∈ s.shared.store.dlq)

theorem Covered.delivered (inv : Tracked s) (covered : Covered s event) : s.Delivered event := by
  obtain settled | ⟨p, same, ready | rest⟩ | ⟨p, same, spare⟩ | ⟨index, phase, at_, carried⟩ := covered
  · exact .inl settled
  · exact .inr ⟨p, same, .inl ready⟩
  · exact .inr ⟨p, same, .inr (.inr rest)⟩
  · exact .inr ⟨p, same, .inr (.inl (List.count_pos_iff.mp (Nat.zero_lt_of_lt spare)))⟩
  · obtain ⟨p, held, same⟩ := carried.payload
    exact .inr ⟨p, same, .inr (.inl (inv.toKept.held at_ held).2.1)⟩

end System

/-- In runs whose startup recoveries leave every handler its copy, an enqueued
event stays in the store until it is settled, and no acknowledgement takes the
copy of a handler that is still at work. -/
theorem delivered_after_orphan_recovery (cfg : Settings) (s t u : System) (payload : Payload)
    (reached : ((machine cfg).restrict (System.RecoversOrphans cfg)).Reachable s)
    (enqueued : System.step cfg s (.enqueue payload) = some t)
    (later : ((machine cfg).restrict (System.RecoversOrphans cfg)).Reaches t u) :
    u.Delivered payload.eventId ∧
      ∀ p, u.holders p ≤ u.shared.store.processing.count p := by
  have tracked : System.Tracked s := reached.invariant
    (fun _ start => System.Initial.tracked start)
    fun inv stepped => inv.step (Machine.restrict_step.mp stepped).1
      (Machine.restrict_step.mp stepped).2
  have waiting : t.Covered payload.eventId := by
    simp only [System.step] at enqueued
    split at enqueued
    · contradiction
    · split at enqueued
      · cases Option.some.inj enqueued
        exact .inr (.inl ⟨payload, rfl, .inl List.mem_cons_self⟩)
      · contradiction
  have final : u.Tracked ∧ u.Covered payload.eventId := by
    refine later.invariant (P := fun s => s.Tracked ∧ s.Covered payload.eventId) ?_
      ⟨tracked.step (a := .enqueue payload) trivial enqueued, waiting⟩
    intro s a t both stepped
    obtain ⟨orphans, stepped⟩ := Machine.restrict_step.mp stepped
    exact ⟨both.1.step orphans stepped, both.2.step both.1 stepped⟩
  exact ⟨final.2.delivered final.1, final.1.copies⟩

theorem delivered_after_orphan_recovery_retried :
    ∃ s t u, ((machine {}).restrict (System.RecoversOrphans {})).Reachable s ∧
      System.step {} s (.enqueue (message 7)) = some t ∧
      ((machine {}).restrict (System.RecoversOrphans {})).Reaches t u ∧
      u.shared.store.retry = [({ message 7 with attempt := 1, maxAttempts := some 5 }, 2)] ∧
      u.Delivered 7 := by
  let failed := approach 0 5 ++ [.worker 0 .claim, .worker 0 .fail, .worker 0 .retry,
    .worker 0 .release, .worker 0 .acknowledge]
  obtain ⟨s, t, u, started, enqueued, ran, retried⟩ :
      ∃ s t u, ((machine {}).restrict (System.RecoversOrphans {})).Reachable s ∧
        System.step {} s (.enqueue (message 7)) = some t ∧ (machine {}).run t failed = some u ∧
        u.shared.store.retry = [({ message 7 with attempt := 1, maxAttempts := some 5 }, 2)] := by
    have started : ((machine {}).restrict (System.RecoversOrphans {})).Reachable _ :=
      Machine.reachable_restrict_of_run [.worker 0 .start, .createEvent 7 1]
        (System.fresh_initial 1) rfl
        ⟨fun p => Nat.zero_le _, fun _ _ => ⟨trivial, fun _ _ => trivial⟩⟩
    exact ⟨_, _, _, started, rfl, rfl, rfl⟩
  have path : ((machine {}).restrict (System.RecoversOrphans {})).Reaches t u :=
    Machine.reaches_restrict_of_run failed ran (Machine.meetsAlong_of_forall (by simp [failed, approach, System.RecoversOrphans]))
  exact ⟨s, t, u, started, enqueued, path, retried,
    (delivered_after_orphan_recovery {} s t u (message 7) started enqueued path).1⟩

/-- A fenced handler acknowledges its message by value and so removes the copy
of its successor, whose crash then loses the event. -/
theorem delivery_lost : ∃ s t u, (machine {}).Reachable s ∧
    System.step {} s (.enqueue (message 7)) = some t ∧ (machine {}).Reaches t u ∧
    ¬ u.Delivered 7 := by
  refine ⟨_, _, _, Machine.reachable_of_run [.worker 0 .start, .createEvent 7 1]
    (System.fresh_initial 2) rfl, rfl,
    Machine.reaches_of_run (approach 0 5 ++ [.tick 30, .worker 1 .start] ++
      approach 1 6 ++ [.worker 1 .claim, .worker 0 .claim, .worker 0 .release,
      .worker 0 .acknowledge, .worker 1 .crash]) rfl, ?_⟩
  rintro (⟨row, ⟨⟩, done⟩ | ⟨p, -, held⟩)
  · simp [System.fresh] at done
  · obtain ready | taken | ⟨_, delayed⟩ | dead := held
    all_goals contradiction

end MapGo.Worker
