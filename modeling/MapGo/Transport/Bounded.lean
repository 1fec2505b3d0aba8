import MapGo.Transport.Memory
import MapGo.Transport.Stream

/-! Workers on the stream transport, and how often a handler is executed for one publication. The
stream counts deliveries for each entry and a retry starts a new entry, so the two counters agree
only while entries are either retried or reclaimed. -/
namespace MapGo.Transport

open Transition Attempts RedisStreamTransport

def settleStream (s : WorkerRun RedisStreamTransport) (worker : Nat) (d : AgentMessageDelivery)
    (errorCode : String) (maxAttempts : Nat) : WorkerRun RedisStreamTransport :=
  { s with transport := (s.transport.retry d errorCode maxAttempts).2 }.put worker .idle

/-- `AgentTaskWorker.run_once` by any number of workers, with crashes. -/
def streamWorkers (agent : AgentTaskWorker) :
    Machine (WorkerRun RedisStreamTransport) WorkerAction where
  initial s := s = { transport := {} }
  step s
    | .publish key attempt =>
        if attempt = 0 then none
        else some { s with transport := s.transport.publish key attempt }
    | .forget key => some { s with transport := s.transport.forget key }
    | .wait ms => some { s with transport := { s.transport with now := s.transport.now + ms } }
    | .receive worker =>
        if s.works worker ≠ .idle then none
        else (s.transport.receive worker).map fun taken =>
          { s with transport := taken.2 }.put worker (.delivered taken.1)
    | .reclaim worker receipt =>
        if s.works worker ≠ .idle then none
        else (s.transport.xautoclaim receipt agent.reclaimIdleMs).map fun taken =>
          { s with transport := taken.2 }.put worker (.claimed receipt taken.1)
    | .count worker =>
        match s.works worker with
        | .claimed receipt message =>
            some (s.put worker (.delivered
              ⟨message, receipt, worker, s.transport.timesDelivered receipt message, true⟩))
        | _ => none
    | .start worker =>
        match s.works worker with
        | .delivered d =>
            if agent.maxAttempts < d.deliveryCount then
              some (settleStream s worker d "DELIVERY_LIMIT_EXCEEDED" agent.maxAttempts)
            else
              some ({ s with executions := s.executions ++ [d.message.publication] }.put worker
                (.handling d))
        | _ => none
    | .succeed worker =>
        match s.works worker with
        | .handling d =>
            some ({ s with transport := (s.transport.acknowledge d).2 }.put worker .idle)
        | _ => none
    | .fail worker errorCode =>
        match s.works worker with
        | .handling d => some (settleStream s worker d errorCode agent.maxAttempts)
        | _ => none
    | .crash worker => some (s.put worker .idle)

/-- A handler's failure is requeued only while its entry is pending and was delivered once. A retried
entry is reclaimed only within the limit or beyond it by its own count, and deliveries are counted
only while the entry is pending. -/
def countsDeliveries (agent : AgentTaskWorker) (s : WorkerRun RedisStreamTransport) :
    WorkerAction → Bool
  | .reclaim _ receipt => s.transport.pending.all fun entry =>
      entry.id ≠ receipt || entry.message.attempt = 1 ||
        entry.message.attempt + entry.timesDelivered ≤ agent.maxAttempts ||
        agent.maxAttempts ≤ entry.timesDelivered
  | .count worker => match s.works worker with
    | .claimed receipt _ => s.transport.isPending receipt
    | _ => true
  | .fail worker _ => match s.works worker with
    | .handling d => d.exhausted agent.maxAttempts || s.transport.pending.any fun entry =>
        entry.id = d.receipt && entry.timesDelivered = 1
    | _ => true
  | _ => true

/-- Each copy of a publication will issue numbers above those of its ledger, and a claimed entry
counts past the limit before the number in hand does. -/
structure StreamLedger (agent : AgentTaskWorker) (s : WorkerRun RedisStreamTransport)
    (l : Ledger Nat Nat) : Prop where
  consistent : s.transport.Consistent
  single : s.transport.live.Nodup
  numbered : Numbered agent s l
  fresh : ∀ publication, s.transport.publications ≤ publication → l.issued publication = 0
  unread : ∀ entry ∈ s.transport.unread, l.issued entry.message.publication < entry.message.attempt
  pending : ∀ entry ∈ s.transport.pending, 1 ≤ entry.message.attempt ∧ 1 ≤ entry.timesDelivered ∧
    l.issued entry.message.publication + 1 ≤ entry.message.attempt + entry.timesDelivered
  claimed : ∀ worker receipt message, s.works worker = .claimed receipt message →
    s.transport.Delivered receipt message ∧
      ∃ number, l.inHand worker = some (message.publication, number) ∧
        ∀ entry ∈ s.transport.pending, entry.id = receipt →
          entry.timesDelivered ≤ agent.maxAttempts → number ≤ agent.maxAttempts
  holds : ∀ worker d, s.works worker = .delivered d ∨ s.works worker = .handling d →
    s.transport.Delivered d.receipt d.message ∧ d.message.publication < s.transport.publications

namespace StreamLedger
variable {agent : AgentTaskWorker} {s t : WorkerRun RedisStreamTransport} {l : Ledger Nat Nat}
  {worker : Nat} {d : AgentMessageDelivery}

theorem idle (ledger : StreamLedger agent s l) (worker : Nat) :
    StreamLedger agent (s.put worker .idle) (l.drop worker) where
  consistent := ledger.consistent
  single := ledger.single
  numbered := ledger.numbered.idle worker
  fresh := ledger.fresh
  unread := ledger.unread
  pending := ledger.pending
  claimed other receipt message work := by
    by_cases same : other = worker
    · simp [same] at work
    · rw [put_works_of_ne s _ same] at work
      obtain ⟨known, number, given, within⟩ := ledger.claimed other receipt message work
      exact ⟨known, number, by simpa [Ledger.drop, same] using given, within⟩
  holds other d work := by
    by_cases same : other = worker
    · simp [same] at work
    · rw [put_works_of_ne s _ same] at work
      exact ledger.holds other d work

/-- A change of the transport alone that delivers nothing. -/
theorem moved (ledger : StreamLedger agent s l) {u : RedisStreamTransport}
    (consistent : u.Consistent) (single : u.live.Nodup)
    (publications : s.transport.publications ≤ u.publications)
    (unread : ∀ entry ∈ u.unread, l.issued entry.message.publication < entry.message.attempt)
    (pending : ∀ entry ∈ u.pending, entry ∈ s.transport.pending)
    (delivered : ∀ receipt message, s.transport.Delivered receipt message →
      u.Delivered receipt message) :
    StreamLedger agent { s with transport := u } l where
  consistent := consistent
  single := single
  numbered := { ledger.numbered with }
  fresh publication unused := ledger.fresh publication (publications.trans unused)
  unread := unread
  pending entry member := ledger.pending entry (pending entry member)
  claimed worker receipt message work := by
    obtain ⟨known, number, given, within⟩ := ledger.claimed worker receipt message work
    exact ⟨delivered _ _ known, number, given, fun entry member => within entry (pending entry member)⟩
  holds worker d work := by
    obtain ⟨known, old⟩ := ledger.holds worker d work
    exact ⟨delivered _ _ known, old.trans_le publications⟩

theorem publish (ledger : StreamLedger agent s l) (key : String) {attempt : Nat}
    (positive : 0 < attempt) :
    StreamLedger agent { s with transport := s.transport.publish key attempt } l := by
  have consistent := ledger.consistent.publish key attempt
  have single := ledger.consistent.single_publish ledger.single key attempt
  refine ledger.moved consistent single (publications_publish ..) ?_ ?_ fun _ _ known =>
    known.publish key attempt
  · intro entry member
    rcases mem_unread_publish member with old | ⟨publication, new⟩
    · exact ledger.unread entry old
    · rw [publication, ledger.fresh _ le_rfl, new]
      exact positive
  · exact fun entry member => pending_publish (t := s.transport) key attempt ▸ member

/-- A copy of a publication is handed to a worker, with the next number. -/
theorem issued (ledger : StreamLedger agent s l) (worker publication : Nat) {work : Work}
    {u : RedisStreamTransport} (consistent : u.Consistent) (single : u.live.Nodup)
    (publications : u.publications = s.transport.publications)
    (old : publication < s.transport.publications)
    (delivered : ∀ receipt message, s.transport.Delivered receipt message →
      u.Delivered receipt message)
    (unread : ∀ entry ∈ u.unread, entry ∈ s.transport.unread ∧
      entry.message.publication ≠ publication)
    (pending : ∀ entry ∈ u.pending, (entry.message.publication = publication ∧
      1 ≤ entry.message.attempt ∧ 1 ≤ entry.timesDelivered ∧
        l.issued publication + 2 ≤ entry.message.attempt + entry.timesDelivered) ∨
      (entry ∈ s.transport.pending ∧ entry.message.publication ≠ publication))
    (grows : ∀ entry ∈ u.pending, (∃ waiting ∈ s.transport.unread, waiting.id = entry.id) ∨
      ∃ was ∈ s.transport.pending, was.id = entry.id ∧ was.timesDelivered ≤ entry.timesDelivered)
    (claims : ∀ receipt message, work = .claimed receipt message →
      u.Delivered receipt message ∧ message.publication = publication ∧
        ∀ entry ∈ u.pending, entry.id = receipt →
          entry.timesDelivered ≤ agent.maxAttempts → l.issued publication < agent.maxAttempts)
    (delivers : ∀ d, work = .delivered d → u.Delivered d.receipt d.message ∧
      d.message.publication = publication ∧
        (d.deliveryCount ≤ agent.maxAttempts → l.issued publication < agent.maxAttempts))
    (starts : ∀ d, work ≠ .handling d) :
    StreamLedger agent ({ s with transport := u }.put worker work) (l.issue worker publication) where
  consistent := consistent
  single := single
  numbered := by
    have base : Numbered agent { s with transport := u } l := { ledger.numbered with }
    exact base.issue worker publication fun d given => (delivers d given).2
  fresh other unused := by
    have apart : other ≠ publication := by
      rintro rfl
      exact absurd (publications ▸ unused) (by omega)
    simpa [Ledger.issue, apart] using ledger.fresh other (publications ▸ unused)
  unread entry member := by
    obtain ⟨before, apart⟩ := unread entry member
    simpa [Ledger.issue, apart] using ledger.unread entry before
  pending entry member := by
    rcases pending entry member with ⟨rfl, attempts, times, above⟩ | ⟨before, apart⟩
    · refine ⟨attempts, times, ?_⟩
      simp only [Ledger.issue, Function.update_self]
      omega
    · simpa [Ledger.issue, apart] using ledger.pending entry before
  claimed other receipt message given := by
    by_cases same : other = worker
    · subst same
      rw [put_works_self] at given
      obtain ⟨known, rfl, within⟩ := claims receipt message given
      exact ⟨known, _, Function.update_self .., within⟩
    · rw [put_works_of_ne _ _ same] at given
      obtain ⟨known, number, held, within⟩ := ledger.claimed other receipt message given
      refine ⟨delivered _ _ known, number, by simpa [Ledger.issue, same] using held, ?_⟩
      intro entry member matched counted
      rcases grows entry member with ⟨waiting, was, id⟩ | ⟨was, before, id, times⟩
      · exact absurd (id.trans matched) (known.2.1 waiting was)
      · exact within was before (id.trans matched) (times.trans counted)
  holds other d given := by
    by_cases same : other = worker
    · subst same
      rw [put_works_self] at given
      obtain ⟨known, rfl, -⟩ := delivers d (given.resolve_right (starts d))
      exact ⟨known, publications ▸ old⟩
    · rw [put_works_of_ne _ _ same] at given
      obtain ⟨known, before⟩ := ledger.holds other d given
      exact ⟨delivered _ _ known, publications ▸ before⟩

theorem receive (ledger : StreamLedger agent s l) {u : RedisStreamTransport}
    (taken : s.transport.receive worker = some (d, u)) :
    StreamLedger agent ({ s with transport := u }.put worker (.delivered d))
      (l.issue worker d.message.publication) := by
  have single := (ledger.consistent.live_receive taken).nodup_iff.mpr ledger.single
  have known := Delivered.received ledger.consistent taken
  have kept := fun receipt message (before : s.transport.Delivered receipt message) =>
    before.receive ledger.consistent taken
  obtain ⟨consistent, rest, waiting, count, rfl⟩ := ledger.consistent.receive taken
  have head : ⟨d.receipt, d.message⟩ ∈ s.transport.unread := waiting ▸ List.mem_cons_self
  have next := ledger.unread _ head
  simp only at next
  have distinct := ledger.single
  simp only [live, waiting, List.map_cons, List.cons_append, List.nodup_cons, List.mem_append,
    List.mem_map, not_or, not_exists, not_and] at distinct
  obtain ⟨⟨otherUnread, otherPending⟩, -⟩ := distinct
  refine ledger.issued worker d.message.publication consistent single rfl
    (ledger.consistent.old _ (by simp [live, waiting])) kept ?_ ?_ ?_ ?_ ?_ ?_
  · intro entry member
    exact ⟨waiting ▸ List.mem_cons_of_mem _ member, otherUnread entry member⟩
  · intro entry member
    rcases List.mem_append.mp member with before | last
    · exact .inr ⟨before, otherPending entry before⟩
    · rw [List.mem_singleton.mp last]
      refine .inl ⟨rfl, ?_, le_rfl, ?_⟩
      · exact Nat.one_le_of_lt next
      · dsimp only
        omega
  · intro entry member
    rcases List.mem_append.mp member with before | last
    · exact .inr ⟨entry, before, rfl, le_rfl⟩
    · exact .inl ⟨_, head, List.mem_singleton.mp last ▸ rfl⟩
  · intro receipt message given
    contradiction
  · intro d' given
    cases given
    exact ⟨known, rfl, fun small => by omega⟩
  · intro d' given
    contradiction

theorem reclaim (ledger : StreamLedger agent s l) {receipt minIdleMs : Nat} {message : AgentMessage}
    {u : RedisStreamTransport}
    (met : countsDeliveries agent s (.reclaim worker receipt) = true)
    (taken : s.transport.xautoclaim receipt minIdleMs = some (message, u)) :
    StreamLedger agent ({ s with transport := u }.put worker (.claimed receipt message))
      (l.issue worker message.publication) := by
  have known := Delivered.claimed ledger.consistent taken
  have kept := fun other found (before : s.transport.Delivered other found) =>
    before.xautoclaim ledger.consistent taken
  obtain ⟨consistent, live, unread, -, publications, entry, member, rfl, rfl, renewed⟩ :=
    ledger.consistent.xautoclaim taken
  obtain ⟨attempts, times, above⟩ := ledger.pending entry member
  have copy : entry.message.publication ∈ s.transport.live :=
    List.mem_append_right _ (List.mem_map.mpr ⟨entry, member, rfl⟩)
  refine ledger.issued worker entry.message.publication consistent (live ▸ ledger.single)
    publications (ledger.consistent.old _ copy) kept ?_ ?_ ?_ ?_ ?_ ?_
  · intro waiting was
    rw [unread] at was
    exact ⟨was, apart_publication ledger.single was member⟩
  · intro other pending
    rcases renewed other pending with ⟨-, same, counted⟩ | ⟨was, apart⟩
    · rw [same, counted]
      exact .inl ⟨rfl, attempts, by omega, by omega⟩
    · refine .inr ⟨was, fun same => apart ?_⟩
      exact congrArg PendingEntry.id (same_publication ledger.single was member same)
  · intro other pending
    rcases renewed other pending with ⟨id, -, counted⟩ | ⟨was, -⟩
    · exact .inr ⟨entry, member, id.symm, by omega⟩
    · exact .inr ⟨other, was, rfl, le_rfl⟩
  · intro receipt message given
    cases given
    refine ⟨known, rfl, fun other pending matched small => ?_⟩
    rcases renewed other pending with ⟨-, -, counted⟩ | ⟨-, apart⟩
    · simp only [countsDeliveries, List.all_eq_true, Bool.or_eq_true, decide_eq_true_eq] at met
      have limits := met entry member
      simp only [ne_eq, not_true_eq_false, false_or] at limits
      omega
    · exact absurd matched apart
  · intro d' given
    contradiction
  · intro d' given
    contradiction

/-- A worker counts the deliveries of the pending entry that it has claimed. -/
theorem count (ledger : StreamLedger agent s l) {receipt : Nat} {message : AgentMessage}
    (work : s.works worker = .claimed receipt message)
    (pending : s.transport.isPending receipt = true) :
    StreamLedger agent (s.put worker (.delivered
      ⟨message, receipt, worker, s.transport.timesDelivered receipt message, true⟩)) l := by
  obtain ⟨known, number, given, within⟩ := ledger.claimed worker receipt message work
  obtain ⟨entry, member, matched⟩ := isPending_iff.mp pending
  have counted := ledger.consistent.timesDelivered_eq member (ledger.pending entry member).2.1 message
  rw [matched] at counted
  have same := known.2.2 entry member matched
  refine ⟨ledger.consistent, ledger.single, ?_, ledger.fresh, ledger.unread, ledger.pending, ?_, ?_⟩
  · refine ledger.numbered.counted given fun small => ?_
    exact within entry member matched (counted ▸ small)
  · intro other receipt message work'
    by_cases mine : other = worker
    · simp [mine] at work'
    · rw [put_works_of_ne _ _ mine] at work'
      exact ledger.claimed other receipt message work'
  · intro other d' work'
    by_cases mine : other = worker
    · subst mine
      simp only [put_works_self, Work.delivered.injEq, reduceCtorEq, or_false] at work'
      subst work'
      refine ⟨known, ledger.consistent.old _ (List.mem_append_right _ ?_)⟩
      exact List.mem_map.mpr ⟨entry, member, congrArg AgentMessage.publication same⟩
    · rw [put_works_of_ne _ _ mine] at work'
      exact ledger.holds other d' work'

theorem settle (ledger : StreamLedger agent s l) {errorCode : String}
    (work : s.works worker = .delivered d ∨ s.works worker = .handling d)
    (once : d.exhausted agent.maxAttempts = true ∨ ∃ entry ∈ s.transport.pending,
      entry.id = d.receipt ∧ entry.timesDelivered = 1) :
    StreamLedger agent (settleStream s worker d errorCode agent.maxAttempts) (l.drop worker) := by
  obtain ⟨known, old⟩ := ledger.holds worker d work
  have consistent := ledger.consistent.retry old errorCode agent.maxAttempts
  refine (ledger.moved consistent ?_ (publications_retry ..).ge ?_ ?_ fun _ _ before =>
    before.retry d errorCode agent.maxAttempts).idle worker
  · by_cases exhausted : d.exhausted agent.maxAttempts = true
    · exact ledger.single.sublist (live_buried exhausted errorCode)
    · obtain ⟨entry, member, matched, -⟩ := once.resolve_left exhausted
      have pending := isPending_iff.mpr ⟨entry, member, matched⟩
      exact (live_requeue ledger.consistent known pending exhausted errorCode).nodup_iff.mpr
        ledger.single
  · intro entry member
    rcases mem_unread_retry member with before | ⟨below, same⟩
    · exact ledger.unread entry before
    · obtain ⟨claim, pending, matched, delivered⟩ := once.resolve_left below
      have message := known.2.2 claim pending matched
      have above := (ledger.pending claim pending).2.2
      rw [message, delivered] at above
      rw [same]
      exact above
  · intro entry member
    exact mem_pending_retry member

theorem start (ledger : StreamLedger agent s l) (work : s.works worker = .delivered d)
    (small : d.deliveryCount ≤ agent.maxAttempts) :
    StreamLedger agent ({ s with executions := s.executions ++ [d.message.publication] }.put worker
      (.handling d)) (l.start worker) where
  consistent := ledger.consistent
  single := ledger.single
  numbered := ledger.numbered.start work small
  fresh := ledger.fresh
  unread := ledger.unread
  pending := ledger.pending
  claimed other receipt message work' := by
    by_cases same : other = worker
    · simp [same] at work'
    · rw [put_works_of_ne _ _ same] at work'
      obtain ⟨known, number, given, within⟩ := ledger.claimed other receipt message work'
      exact ⟨known, number, by simpa [Ledger.start, Ledger.drop, same] using given, within⟩
  holds other d' work' := by
    by_cases same : other = worker
    · simp only [same, put_works_self, reduceCtorEq, Work.handling.injEq, false_or] at work'
      subst work'
      exact ledger.holds worker d (.inl work)
    · rw [put_works_of_ne _ _ same] at work'
      exact ledger.holds other d' work'

end StreamLedger

/-- A step that keeps the condition advances the ledger of the run. -/
theorem stream_step {agent : AgentTaskWorker} {s t : WorkerRun RedisStreamTransport}
    {action : WorkerAction} {l : Ledger Nat Nat} (ledger : StreamLedger agent s l)
    (met : countsDeliveries agent s action = true)
    (stepped : (streamWorkers agent).step s action = some t) : ∃ next, StreamLedger agent t next := by
  cases action with
  | publish key attempt =>
      simp only [streamWorkers, Option.ite_none_left_eq_some, Option.some.injEq] at stepped
      obtain ⟨positive, rfl⟩ := stepped
      exact ⟨l, ledger.publish key (Nat.pos_of_ne_zero positive)⟩
  | forget key =>
      cases Option.some.inj stepped
      exact ⟨l, ledger.moved { ledger.consistent with } ledger.single le_rfl ledger.unread
        (fun _ kept => kept) fun _ _ known => known⟩
  | wait ms =>
      cases Option.some.inj stepped
      exact ⟨l, ledger.moved { ledger.consistent with } ledger.single le_rfl ledger.unread
        (fun _ kept => kept) fun _ _ known => known⟩
  | receive worker =>
      simp only [streamWorkers, Option.ite_none_left_eq_some, Option.map_eq_some_iff] at stepped
      obtain ⟨-, taken, received, rfl⟩ := stepped
      exact ⟨_, ledger.receive received⟩
  | reclaim worker receipt =>
      simp only [streamWorkers, Option.ite_none_left_eq_some, Option.map_eq_some_iff] at stepped
      obtain ⟨-, taken, claimed, rfl⟩ := stepped
      exact ⟨_, ledger.reclaim met claimed⟩
  | count worker =>
      simp only [streamWorkers] at stepped
      split at stepped
      · rename_i receipt message work
        cases stepped
        simp only [countsDeliveries, work] at met
        exact ⟨_, ledger.count work met⟩
      · contradiction
  | start worker =>
      simp only [streamWorkers] at stepped
      split at stepped
      · rename_i d work
        split at stepped
        · rename_i beyond
          cases stepped
          have exhausted : d.exhausted agent.maxAttempts = true := by
            simp only [AgentMessageDelivery.exhausted, decide_eq_true_eq]
            omega
          exact ⟨_, ledger.settle (.inl work) (.inl exhausted)⟩
        · rename_i small
          cases stepped
          exact ⟨_, ledger.start work (not_lt.mp small)⟩
      · contradiction
  | succeed worker =>
      simp only [streamWorkers] at stepped
      split at stepped
      · rename_i d work
        cases stepped
        have single : (s.transport.xack d.receipt).live.Nodup :=
          ledger.single.sublist ((List.filter_sublist.map _).append_left _)
        exact ⟨_, (ledger.moved (ledger.consistent.xack d.receipt) single le_rfl ledger.unread
          (fun entry kept => (mem_xack.mp kept).1) fun _ _ known => known.xack d.receipt).idle worker⟩
      · contradiction
  | fail worker errorCode =>
      simp only [streamWorkers] at stepped
      split at stepped
      · rename_i d work
        cases stepped
        simp only [countsDeliveries, work, Bool.or_eq_true, List.any_eq_true, Bool.and_eq_true,
          decide_eq_true_eq] at met
        exact ⟨_, ledger.settle (.inr work) met⟩
      · contradiction
  | crash worker =>
      cases Option.some.inj stepped
      exact ⟨_, ledger.idle worker⟩

theorem stream_start {agent : AgentTaskWorker} :
    StreamLedger agent { transport := {} } .empty where
  consistent := ⟨.nil, by simp, .nil, by simp, by simp, by simp [live]⟩
  single := .nil
  numbered := ⟨Ledger.sound_empty, rfl, by simp⟩
  fresh _ _ := rfl
  unread := by simp
  pending := by simp
  claimed := by simp
  holds := by simp

theorem stream_bounded {agent : AgentTaskWorker} {s : WorkerRun RedisStreamTransport}
    (reached : ((streamWorkers agent).restrict fun s a =>
      countsDeliveries agent s a = true).Reachable s)
    (publication : Nat) : s.executions.count publication ≤ agent.maxAttempts := by
  have tracked : ∃ l, StreamLedger agent s l := by
    refine Machine.Reachable.invariant (P := fun s => ∃ l, StreamLedger agent s l) ?_ ?_ reached
    · rintro s rfl
      exact ⟨.empty, stream_start⟩
    · rintro s action t ⟨l, ledger⟩ stepped
      obtain ⟨met, stepped⟩ := Machine.restrict_step.mp stepped
      exact stream_step ledger met stepped
  obtain ⟨l, ledger⟩ := tracked
  exact ledger.numbered.executions_le publication

/-- On both transports, a run that keeps its counters apart executes the handler at most
`max_attempts` times for a publication. -/
theorem handler_bounded (agent : AgentTaskWorker) (publication : Nat) :
    (∀ s, ((memoryWorkers agent).restrict fun s a =>
      requeuesUnreclaimed agent s a = true).Reachable s →
        s.executions.count publication ≤ agent.maxAttempts) ∧
    ∀ s, ((streamWorkers agent).restrict fun s a => countsDeliveries agent s a = true).Reachable s →
      s.executions.count publication ≤ agent.maxAttempts := by
  constructor
  · intro s reached
    exact memory_bounded reached publication
  · intro s reached
    exact stream_bounded reached publication

theorem defaultAttempts_fit : 1 ≤ 3 ∧ 3 ≤ 5 := by decide

theorem defaultIdle_fits : 1000 ≤ 30000 := by decide

def defaultWorker : AgentTaskWorker := ⟨3, 30000, defaultAttempts_fit, defaultIdle_fits⟩

/-- The worker crashes in its first handling and comes back by a reclaim. -/
def crashedMemory : List WorkerAction :=
  [.publish "task" 1, .receive 0, .start 0, .crash 0, .wait 30000, .reclaim 0 0, .start 0]

def crashedStream : List WorkerAction :=
  [.publish "task" 1, .receive 0, .start 0, .crash 0, .wait 30000, .reclaim 0 0, .count 0, .start 0]

/-- The reclaimed handling fails, and so does the next one. -/
def failedTwice : List WorkerAction :=
  [.fail 0 "error", .receive 0, .start 0, .fail 0 "error", .receive 0, .start 0]

theorem handler_bounded_reclaimed :
    (∃ s, (memoryWorkers defaultWorker).run { transport := {} } crashedMemory = some s ∧
      2 ≤ s.executions.count 0 ∧ s.executions.count 0 ≤ 3) ∧
    ∃ s, (streamWorkers defaultWorker).run { transport := {} } crashedStream = some s ∧
      2 ≤ s.executions.count 0 ∧ s.executions.count 0 ≤ 3 := by
  have bounded := handler_bounded defaultWorker 0
  constructor
  · have ran : ∃ s, (memoryWorkers defaultWorker).run { transport := {} } crashedMemory = some s ∧
        2 ≤ s.executions.count 0 := by decide +kernel
    obtain ⟨s, ran, executed⟩ := ran
    have met : (memoryWorkers defaultWorker).along (requeuesUnreclaimed defaultWorker)
        { transport := {} } crashedMemory = true := by decide +kernel
    have reached := Machine.reachable_restrict_of_run _ rfl ran (Machine.meetsAlong_of_along met)
    exact ⟨s, ran, executed, bounded.1 s reached⟩
  · have ran : ∃ s, (streamWorkers defaultWorker).run { transport := {} } crashedStream = some s ∧
        2 ≤ s.executions.count 0 := by decide +kernel
    obtain ⟨s, ran, executed⟩ := ran
    have met : (streamWorkers defaultWorker).along (countsDeliveries defaultWorker)
        { transport := {} } crashedStream = true := by decide +kernel
    have reached := Machine.reachable_restrict_of_run _ rfl ran (Machine.meetsAlong_of_along met)
    exact ⟨s, ran, executed, bounded.2 s reached⟩

/-- The retries after a reclaim start from the attempt number alone: four executions. -/
theorem reclaimed_executions_exceed :
    (¬ ∀ agent s publication, (memoryWorkers agent).Reachable s →
      s.executions.count publication ≤ agent.maxAttempts) ∧
    ¬ ∀ agent s publication, (streamWorkers agent).Reachable s →
      s.executions.count publication ≤ agent.maxAttempts := by
  constructor
  · intro bounded
    have ran : ∃ s, (memoryWorkers defaultWorker).run { transport := {} }
        (crashedMemory ++ failedTwice) = some s ∧ s.executions.count 0 = 4 := by decide +kernel
    obtain ⟨s, ran, executed⟩ := ran
    have limit := bounded defaultWorker s 0 (Machine.reachable_of_run _ rfl ran)
    rw [executed] at limit
    exact absurd limit (by decide)
  · intro bounded
    have ran : ∃ s, (streamWorkers defaultWorker).run { transport := {} }
        (crashedStream ++ failedTwice) = some s ∧ s.executions.count 0 = 4 := by decide +kernel
    obtain ⟨s, ran, executed⟩ := ran
    have limit := bounded defaultWorker s 0 (Machine.reachable_of_run _ rfl ran)
    rw [executed] at limit
    exact absurd limit (by decide)

end MapGo.Transport
