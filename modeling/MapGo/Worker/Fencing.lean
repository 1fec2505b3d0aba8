import MapGo.Worker.Process

/-! Fencing by the event row. The claim update and the commit guard compare
tokens of one row, so the effects on each event respect its claims in every
reachable state. The lock belongs to the trip, though, and a second event of
the trip has a row of its own: the order of claims and commits over a trip
holds only in runs that meet a condition on the claims. -/
namespace MapGo.Worker
open Transition

/-- A durable effect against an older one of the same event. -/
def Effect.Respects : Effect → Effect → Prop
  | .claim event _ token, .claim event' _ token' => event = event' → token' < token
  | .commit event _ token _, .claim event' _ token' => event = event' → token' ≤ token
  | _, .commit .. => True

def Effect.finishes (event : Nat) : Effect → Bool
  | .claim .. => false
  | .commit event' _ _ processed => event' = event && processed

namespace System

/-- A handler past its claim, inside the guarded session. -/
def Running (s : System) (index event fence : Nat) (lost : Bool) : Prop :=
  ∃ payload token, s.workers[index]? = some (.holding .running payload token lost) ∧
    payload.eventId = event ∧ token.fence = fence

theorem running_set {s : System}
    (running : Running ⟨sh, s.workers.set index phase⟩ other event fence lost) :
    (other = index ∧ ∃ payload token, phase = .holding .running payload token lost ∧
      payload.eventId = event ∧ token.fence = fence) ∨
    other ≠ index ∧ s.Running other event fence lost := by
  obtain ⟨payload, token, at_, same⟩ := running
  by_cases here : other = index
  · subst here
    rw [List.getElem?_set_self', Option.map_eq_map, Option.map_eq_some_iff] at at_
    obtain ⟨_, _, now⟩ := at_
    exact .inl ⟨rfl, payload, token, now, same⟩
  · rw [List.getElem?_set_ne (Ne.symm here)] at at_
    exact .inr ⟨here, payload, token, at_, same⟩

/-- What a step can do to rows, effects and running handlers. -/
inductive FenceStep (s : System) : Action → System → Prop where
  | quiet (events : t.shared.events = s.shared.events)
      (trips : ∀ trip, t.shared.trips trip = true → s.shared.trips trip = true)
      (effects : t.shared.effects = s.shared.effects)
      (running : ∀ {index event fence lost}, t.Running index event fence lost →
        ∃ before, s.Running index event fence before ∧ (lost = false → before = false)) :
      FenceStep s a t
  | created (fresh : s.shared.events event = none) :
      FenceStep s a ⟨{ s.shared with
        events := Function.update s.shared.events event (some ⟨trip, .processed, 0⟩) }, s.workers⟩
  | claimed (owned : s.workers[index]? = some (.holding .owned payload token lost))
      (took : s.shared.claimWorkerFence payload.eventId token.fence = some sh) :
      FenceStep s (.worker index .claim)
        ⟨sh, s.workers.set index (.holding .running payload token lost)⟩
  | committed (running : s.Running index event fence lost)
      (passed : s.shared.guardedCommit event fence lost false = some sh) :
      FenceStep s a ⟨sh, s.workers⟩
  | finished (running : s.Running index event fence lost)
      (passed : s.shared.guardedCommit event fence lost true = some sh) :
      FenceStep s a ⟨sh, s.workers.set index (.releasing payload token true)⟩

theorem fenceStep_of_step (stepped : System.step cfg s a = some t) : FenceStep s a t := by
  cases a with
  | tick seconds =>
      cases Option.some.inj stepped
      exact .quiet rfl (fun _ alive => alive) rfl fun running => ⟨_, running, id⟩
  | createEvent event trip =>
      simp only [System.step] at stepped
      split at stepped
      · rename_i free
        cases Option.some.inj stepped
        exact .created (Option.isNone_iff_eq_none.mp free.1)
      · contradiction
  | enqueue payload =>
      simp only [System.step] at stepped
      split at stepped
      · contradiction
      · split at stepped
        · cases Option.some.inj stepped
          exact .quiet rfl (fun _ alive => alive) rfl fun running => ⟨_, running, id⟩
        · contradiction
  | deleteTrip trip =>
      cases Option.some.inj stepped
      refine .quiet rfl (fun other alive => ?_) rfl fun running => ⟨_, running, id⟩
      by_cases same : other = trip
      · simp [same] at alive
      · simpa [same] using alive
  | worker index move =>
      obtain ⟨phase, sh, phase', at_, moved, rfl⟩ := System.step_worker stepped
      -- A move that leaves database and effects alone starts no guarded session.
      have quiet (same : sh.events = s.shared.events ∧ sh.trips = s.shared.trips ∧
          sh.effects = s.shared.effects)
          (kept : ∀ payload token lost, phase' = .holding .running payload token lost →
            ∃ before, phase = .holding .running payload token before ∧
              (lost = false → before = false)) :
          FenceStep s (.worker index move) ⟨sh, s.workers.set index phase'⟩ := by
        refine .quiet same.1 (fun trip alive => same.2.1 ▸ alive) same.2.2 fun running => ?_
        obtain ⟨rfl, payload, token, now, ids⟩ | ⟨_, running⟩ := running_set running
        · obtain ⟨before, was, flag⟩ := kept _ _ _ now
          exact ⟨before, ⟨payload, token, was ▸ at_, ids⟩, flag⟩
        · exact ⟨_, running, id⟩
      cases moved with
      | claimed took => exact .claimed at_ took
      | committed passed =>
          obtain ⟨inside, same⟩ := List.getElem?_eq_some_iff.mp at_
          rw [← same, List.set_getElem_self]
          exact .committed ⟨_, _, at_, rfl, rfl⟩ passed
      | finished passed => exact .finished ⟨_, _, at_, rfl, rfl⟩ passed
      | released => exact quiet ⟨rfl, rfl, rfl⟩ fun _ _ _ now => by split at now <;> contradiction
      | renewed =>
          refine quiet ⟨rfl, rfl, rfl⟩ ?_
          rintro _ _ _ ⟨⟩
          exact ⟨_, rfl, fun _ => rfl⟩
      | lostLease =>
          refine quiet ⟨rfl, rfl, rfl⟩ ?_
          rintro _ _ _ ⟨⟩
          exact ⟨_, rfl, fun _ => rfl⟩
      | _ => exact quiet ⟨rfl, rfl, rfl⟩ (by simp)

/-- Tokens in rows bound all claims and all running handlers, and the token a
row carries belongs to at most one of these. -/
structure Fenced (s : System) : Prop where
  ordered : s.shared.effects.Pairwise Effect.Respects
  claims : .claim event trip fence ∈ s.shared.effects →
    ∃ row, s.shared.events event = some row ∧ row.tripId = trip ∧ fence ≤ row.workerFencingToken
  running : s.Running index event fence lost → ∃ row, s.shared.events event = some row ∧
    fence ≤ row.workerFencingToken ∧
    (row.status = .workerProcessed → fence ≠ row.workerFencingToken)
  unique : s.Running index event fence lost → s.Running other event fence lost' → index = other
  finished : 0 < s.shared.effects.countP (Effect.finishes event) →
    ∃ row, s.shared.events event = some row ∧ row.status = .workerProcessed
  once : ∀ event, s.shared.effects.countP (Effect.finishes event) ≤ 1
  origin : s.shared.events event = some row → row.workerFencingToken = 0 ∨
    .claim event row.tripId row.workerFencingToken ∈ s.shared.effects

theorem Initial.fenced (start : System.Initial s) : Fenced s := by
  obtain ⟨_, _, _, _, _, _, _, effects, down⟩ := start
  have still : ∀ {index event fence lost}, ¬ s.Running index event fence lost := by
    rintro index event fence lost ⟨payload, token, at_, _⟩
    simpa using down _ (List.mem_of_getElem? at_)
  constructor
  all_goals simp_all

theorem Fenced.created (inv : Fenced s) (fresh : s.shared.events event = none) :
    Fenced ⟨{ s.shared with
      events := Function.update s.shared.events event (some ⟨trip, .processed, 0⟩) }, s.workers⟩ := by
  refine ⟨inv.ordered, fun member => ?_, fun running => ?_, inv.unique, fun some_ => ?_, inv.once,
    fun {other row} found => ?_⟩
  · obtain ⟨row, found, rest⟩ := inv.claims member
    exact ⟨row, update_fresh fresh found, rest⟩
  · obtain ⟨row, found, rest⟩ := inv.running running
    exact ⟨row, update_fresh fresh found, rest⟩
  · obtain ⟨row, found, rest⟩ := inv.finished some_
    exact ⟨row, update_fresh fresh found, rest⟩
  · obtain ⟨-, rfl⟩ | ⟨-, old⟩ := update_row found
    · exact .inl rfl
    · exact inv.origin old

/-- A successful claim lies above every claim and every handler of its event. -/
theorem Fenced.claimed (inv : Fenced s)
    (took : s.shared.claimWorkerFence payload.eventId token.fence = some sh) :
    Fenced ⟨sh, s.workers.set index (.holding .running payload token lost)⟩ := by
  obtain ⟨row, found, unsettled, lower, rfl⟩ := Shared.claimWorkerFence_some took
  obtain ⟨found, -⟩ := Shared.findEvent_some.mp found
  have below : ∀ {other fence flag}, s.Running other payload.eventId fence flag →
      fence < token.fence := by
    intro other fence flag running
    obtain ⟨row', found', bound, _⟩ := inv.running running
    obtain rfl := Option.some.inj (found.symm.trans found')
    omega
  refine ⟨?_, ?_, ?_, ?_, ?_, fun event => by simpa [Effect.finishes] using inv.once event, ?_⟩
  · refine List.pairwise_cons.mpr ⟨fun older member => ?_, inv.ordered⟩
    cases older with
    | commit => trivial
    | claim event trip fence =>
        rintro rfl
        obtain ⟨row', found', _, bound⟩ := inv.claims member
        obtain rfl := Option.some.inj (found.symm.trans found')
        omega
  · intro event trip fence member
    by_cases same : event = payload.eventId
    · subst same
      refine ⟨_, Function.update_self .., ?_⟩
      rcases List.mem_cons.mp member with new | old
      · injection new with _ trip fence
        exact ⟨trip.symm, fence.le⟩
      · obtain ⟨row', found', trip, bound⟩ := inv.claims old
        obtain rfl := Option.some.inj (found.symm.trans found')
        exact ⟨trip, bound.trans lower.le⟩
    · rcases List.mem_cons.mp member with new | old
      · injection new with event
        exact absurd event same
      · simpa [Function.update_of_ne same] using inv.claims old
  · intro other event fence flag running
    obtain ⟨rfl, _, _, ⟨⟩, rfl, rfl⟩ | ⟨_, running⟩ := running_set running
    · exact ⟨_, Function.update_self .., Nat.le_refl _, by simp⟩
    · by_cases same : event = payload.eventId
      · subst same
        exact ⟨_, Function.update_self .., (below running).le, by simp⟩
      · simpa [Function.update_of_ne same] using inv.running running
  · intro first event fence flag second flag' running running'
    obtain ⟨rfl, _, _, ⟨⟩, rfl, rfl⟩ | ⟨_, was⟩ := running_set running <;>
      obtain ⟨rfl, _, _, ⟨⟩, event, fence⟩ | ⟨_, was'⟩ := running_set running'
    · rfl
    · exact absurd (below was') (Nat.lt_irrefl _)
    · subst event fence
      exact absurd (below was) (Nat.lt_irrefl _)
    · exact inv.unique was was'
  · intro event some_
    obtain ⟨row', found', settled⟩ := inv.finished (by simpa [Effect.finishes] using some_)
    have other : event ≠ payload.eventId := by
      rintro rfl
      obtain rfl := Option.some.inj (found.symm.trans found')
      exact unsettled settled
    exact ⟨row', by simpa [Function.update_of_ne other] using found', settled⟩
  · intro event row' found'
    obtain ⟨rfl, rfl⟩ | ⟨-, old⟩ := update_row found'
    · exact .inr List.mem_cons_self
    · exact (inv.origin old).imp_right (List.mem_cons_of_mem _)

/-- The row a passed guard has read, still unsettled. -/
theorem Fenced.current (inv : Fenced s) (running : s.Running index event fence lost)
    (passed : s.shared.guardedCommit event fence lost processed = some sh) :
    ∃ row, s.shared.events event = some row ∧ row.workerFencingToken = fence ∧
      row.status ≠ .workerProcessed ∧ s.shared.trips row.tripId = true := by
  obtain ⟨-, row, found, current, -⟩ := Shared.guardedCommit_some passed
  obtain ⟨found, alive⟩ := Shared.findEvent_some.mp found
  obtain ⟨row', found', _, unsettled⟩ := inv.running running
  obtain rfl := Option.some.inj (found.symm.trans found')
  exact ⟨row, found, current, fun settled => unsettled settled current.symm, alive⟩

theorem Fenced.respects (inv : Fenced s) (found : s.shared.events event = some row)
    (current : row.workerFencingToken = fence) :
    ∀ older ∈ s.shared.effects, Effect.Respects (.commit event trip fence processed) older := by
  intro older member
  cases older with
  | commit => trivial
  | claim event' trip fence' =>
      rintro rfl
      obtain ⟨row', found', _, bound⟩ := inv.claims member
      obtain rfl := Option.some.inj (found.symm.trans found')
      omega

theorem Fenced.committed (inv : Fenced s) (running : s.Running index event fence lost)
    (passed : s.shared.guardedCommit event fence lost false = some sh) :
    Fenced ⟨sh, s.workers⟩ := by
  obtain ⟨row', found', current', -, -⟩ := inv.current running passed
  obtain ⟨-, row, -, -, rfl⟩ := Shared.guardedCommit_some passed
  refine ⟨List.pairwise_cons.mpr ⟨inv.respects found' current', inv.ordered⟩, fun member => ?_,
    inv.running, inv.unique, fun some_ => ?_, fun event => ?_,
    fun found => (inv.origin found).imp_right (List.mem_cons_of_mem _)⟩
  · exact inv.claims (by simpa using member)
  · exact inv.finished (by simpa [Effect.finishes] using some_)
  · simpa [Effect.finishes] using inv.once event

/-- The final commit takes the row's token out of circulation. -/
theorem Fenced.finish (inv : Fenced s) (running : s.Running index event fence lost)
    (passed : s.shared.guardedCommit event fence lost true = some sh) :
    Fenced ⟨sh, s.workers.set index (.releasing payload token true)⟩ := by
  obtain ⟨row, found, current, unsettled, -⟩ := inv.current running passed
  obtain ⟨-, _, read, -, rfl⟩ := Shared.guardedCommit_some passed
  obtain rfl := Option.some.inj (found.symm.trans (Shared.findEvent_some.mp read).1)
  have before : ∀ {sh' other event' fence' flag},
      Running ⟨sh', s.workers.set index (.releasing payload token true)⟩ other event' fence' flag →
      other ≠ index ∧ s.Running other event' fence' flag := by
    intro sh' other event' fence' flag now
    obtain ⟨_, _, _, ⟨⟩, _⟩ | was := running_set now
    exact was
  have first : s.shared.effects.countP (Effect.finishes event) = 0 := by
    by_contra some_
    obtain ⟨row', found', settled⟩ := inv.finished (Nat.pos_of_ne_zero some_)
    obtain rfl := Option.some.inj (found.symm.trans found')
    exact unsettled settled
  refine ⟨List.pairwise_cons.mpr ⟨inv.respects found current, inv.ordered⟩, ?_, ?_, ?_, ?_, ?_, ?_⟩
  · intro event' trip fence' member
    obtain ⟨row', found', rest⟩ := inv.claims (by simpa using member)
    by_cases same : event' = event
    · subst same
      obtain rfl := Option.some.inj (found.symm.trans found')
      exact ⟨_, Function.update_self .., rest⟩
    · exact ⟨row', by simpa [Function.update_of_ne same] using found', rest⟩
  · intro other event' fence' flag now
    obtain ⟨apart, was⟩ := before now
    obtain ⟨row', found', bound, open_⟩ := inv.running was
    by_cases same : event' = event
    · subst same
      obtain rfl := Option.some.inj (found.symm.trans found')
      -- A second handler with the row's token would be the one that has just left.
      exact ⟨_, Function.update_self .., bound, fun _ equal => apart (inv.unique (equal ▸ was) (current ▸ running))⟩
    · exact ⟨row', by simpa [Function.update_of_ne same] using found', bound, open_⟩
  · exact fun now now' => inv.unique (before now).2 (before now').2
  · intro event' some_
    by_cases same : event' = event
    · subst same
      exact ⟨_, Function.update_self .., rfl⟩
    · have earlier : 0 < s.shared.effects.countP (Effect.finishes event') := by
        simpa [Effect.finishes, Ne.symm same] using some_
      obtain ⟨row', found', settled⟩ := inv.finished earlier
      exact ⟨row', by simpa [Function.update_of_ne same] using found', settled⟩
  · intro event'
    by_cases same : event' = event
    · subst same
      simp [Effect.finishes, first]
    · simpa [Effect.finishes, Ne.symm same] using inv.once event'
  · intro event' row' found'
    obtain ⟨rfl, rfl⟩ | ⟨-, old⟩ := update_row found'
    · exact (inv.origin found).imp_right (List.mem_cons_of_mem _)
    · exact (inv.origin old).imp_right (List.mem_cons_of_mem _)

theorem Fenced.step (inv : Fenced s) (stepped : System.step cfg s a = some t) : Fenced t := by
  cases fenceStep_of_step stepped with
  | quiet events trips effects running =>
      refine ⟨by rw [effects]; exact inv.ordered, fun member => ?_, fun now => ?_,
        fun now now' => ?_, fun some_ => ?_, fun event => by rw [effects]; exact inv.once event,
        fun found => by rw [effects]; exact inv.origin (events ▸ found)⟩
      · rw [events]
        exact inv.claims (effects ▸ member)
      · obtain ⟨_, was, _⟩ := running now
        rw [events]
        exact inv.running was
      · obtain ⟨_, was, _⟩ := running now
        obtain ⟨_, was', _⟩ := running now'
        exact inv.unique was was'
      · rw [events]
        exact inv.finished (effects ▸ some_)
  | created fresh => exact inv.created fresh
  | claimed owned took => exact inv.claimed took
  | committed running passed => exact inv.committed running passed
  | finished running passed => exact inv.finish running passed

theorem fenced_of_reachable (reached : (machine cfg).Reachable s) : Fenced s :=
  reached.invariant (fun _ start => Initial.fenced start) fun inv stepped => inv.step stepped

end System

/-- In every reachable state of any number of Workers: a commit guarded by a
token follows no claim of the event with a higher one, the tokens claimed for
an event strictly increase, and an event becomes `worker_processed` at most once. -/
theorem event_fencing_safe (cfg : Settings) (s : System) (event : Nat)
    (reached : (machine cfg).Reachable s) :
    (∀ later earlier trip token processed trip' token',
      s.shared.effects = later ++ .commit event trip token processed :: earlier →
      .claim event trip' token' ∈ earlier → token' ≤ token) ∧
    (∀ later earlier trip token trip' token',
      s.shared.effects = later ++ .claim event trip token :: earlier →
      .claim event trip' token' ∈ earlier → token' < token) ∧
    s.shared.effects.countP (Effect.finishes event) ≤ 1 := by
  have inv := System.fenced_of_reachable reached
  refine ⟨?_, ?_, inv.once event⟩
  · intro later earlier trip token processed trip' token' split older
    have ordered := (List.pairwise_append.mp (split ▸ inv.ordered)).2.1
    exact List.rel_of_pairwise_cons ordered older rfl
  · intro later earlier trip token trip' token' split older
    have ordered := (List.pairwise_append.mp (split ▸ inv.ordered)).2.1
    exact List.rel_of_pairwise_cons ordered older rfl

theorem event_fencing_safe_processed : ∃ s, (machine {}).Reachable s ∧
    s.shared.effects = [.commit 7 1 1 true, .commit 7 1 1 false, .claim 7 1 1] ∧
    s.shared.effects.countP (Effect.finishes 7) ≤ 1 := by
  have reached : (machine {}).Reachable _ := Machine.reachable_of_run
    (.worker 0 .start :: announce 7 ++ approach 0 5 ++
      [.worker 0 .claim, .worker 0 .commit, .worker 0 .finish])
    (System.fresh_initial 1) rfl
  exact ⟨_, reached, rfl, (event_fencing_safe {} _ 7 reached).2.2⟩

namespace System

/-- A running handler whose next commit the guard of its own row lets through. -/
def Unfenced (s : System) (index event trip fence : Nat) : Prop :=
  s.Running index event fence false ∧ ∃ row, s.shared.findEvent event = some row ∧
    row.tripId = trip ∧ row.workerFencingToken = fence

/-- Commits of a trip's events follow no claim of the trip with a higher token. -/
def TripOrdered (effects : List Effect) : Prop :=
  ∀ later earlier event trip token processed event' token',
    effects = later ++ .commit event trip token processed :: earlier →
    .claim event' trip token' ∈ earlier → token' ≤ token

/-- A claim that can succeed comes in turn when no row of its trip carries a
higher token and no handler with a lower one can still commit to another row. -/
def ClaimsInTurn (s : System) : Action → Prop
  | .worker index .claim => ∀ payload token lost row,
      s.workers[index]? = some (.holding .owned payload token lost) →
      s.shared.findEvent payload.eventId = some row → row.status ≠ .workerProcessed →
      row.workerFencingToken < token.fence →
      (lost = false → ∀ event other, s.shared.findEvent event = some other →
        other.tripId = row.tripId → other.workerFencingToken ≤ token.fence) ∧
      ∀ index' event fence, event ≠ payload.eventId → s.Unfenced index' event row.tripId fence →
        token.fence ≤ fence
  | _ => True

theorem tripOrdered_claim : TripOrdered (.claim event trip token :: effects) ↔ TripOrdered effects := by
  constructor
  · intro ordered later earlier e t f p e' f' split
    exact ordered (.claim event trip token :: later) earlier e t f p e' f' (by rw [split]; rfl)
  · intro ordered later earlier e t f p e' f' split
    cases later with
    | nil => simp at split
    | cons _ later => exact ordered later earlier e t f p e' f' (List.cons.inj split).2

theorem tripOrdered_commit : TripOrdered (.commit event trip token processed :: effects) ↔
    (∀ event' token', .claim event' trip token' ∈ effects → token' ≤ token) ∧
      TripOrdered effects := by
  constructor
  · intro ordered
    refine ⟨fun event' token' => ordered [] effects event trip token processed event' token' rfl,
      fun later earlier e t f p e' f' split => ?_⟩
    exact ordered (.commit event trip token processed :: later) earlier e t f p e' f'
      (by rw [split]; rfl)
  · rintro ⟨latest, ordered⟩ later earlier e t f p e' f' split
    cases later with
    | nil =>
        obtain ⟨⟨rfl, rfl, rfl, rfl⟩, rfl⟩ := by simpa using split
        exact latest e' f'
    | cons _ later => exact ordered later earlier e t f p e' f' (List.cons.inj split).2

/-- Handlers that can still commit have seen every claim of their trip. -/
structure TripFenced (s : System) : Prop where
  fenced : s.Fenced
  ordered : TripOrdered s.shared.effects
  unfenced : s.Unfenced index event trip fence →
    .claim event' trip fence' ∈ s.shared.effects → fence' ≤ fence

theorem Unfenced.of_claim (inv : Fenced s)
    (took : s.shared.claimWorkerFence payload.eventId token.fence = some sh)
    (found : s.shared.findEvent payload.eventId = some row)
    (open_ : Unfenced ⟨sh, s.workers.set index (.holding .running payload token lost)⟩
      other event trip fence) :
    (trip = row.tripId ∧ fence = token.fence ∧ lost = false) ∨
      event ≠ payload.eventId ∧ s.Unfenced other event trip fence := by
  obtain ⟨running, row', found', same, current⟩ := open_
  obtain ⟨_, read, unsettled, lower, rfl⟩ := Shared.claimWorkerFence_some took
  obtain rfl := Option.some.inj (found.symm.trans read)
  obtain ⟨row_, alive⟩ := Shared.findEvent_some.mp found'
  obtain ⟨_, _, _, ⟨⟩, rfl, rfl⟩ | ⟨apart, was⟩ := running_set running
  · obtain ⟨-, rfl⟩ | ⟨apart, -⟩ := update_row row_
    · exact .inl ⟨same.symm, rfl, rfl⟩
    · contradiction
  · obtain ⟨rfl, rfl⟩ | ⟨apart, old⟩ := update_row row_
    · obtain ⟨row'', found'', bound, _⟩ := inv.running was
      obtain rfl := Option.some.inj ((Shared.findEvent_some.mp found).1.symm.trans found'')
      simp only at current
      omega
    · exact .inr ⟨apart, was, row', Shared.findEvent_some.mpr ⟨old, alive⟩, same, current⟩

/-- A commit that passes its guard follows every claim of its trip. -/
theorem TripFenced.latest (inv : TripFenced s) (running : s.Running index event fence lost)
    (found : s.shared.findEvent event = some row) (current : row.workerFencingToken = fence)
    (held : lost = false) :
    ∀ event' token', .claim event' row.tripId token' ∈ s.shared.effects → token' ≤ fence := by
  subst held
  exact fun event' token' member => inv.unfenced ⟨running, row, found, rfl, current⟩ member

theorem TripFenced.step (inv : TripFenced s) (turn : s.ClaimsInTurn a)
    (stepped : System.step cfg s a = some t) : TripFenced t := by
  have fenced := inv.fenced.step stepped
  cases fenceStep_of_step stepped with
  | quiet events trips effects running =>
      refine ⟨fenced, effects ▸ inv.ordered, fun open_ member => ?_⟩
      obtain ⟨now, row, found, same⟩ := open_
      obtain ⟨_, was, flag⟩ := running now
      obtain ⟨found, alive⟩ := Shared.findEvent_some.mp found
      exact inv.unfenced ⟨flag rfl ▸ was, row,
        Shared.findEvent_some.mpr ⟨events ▸ found, trips _ alive⟩, same⟩ (effects ▸ member)
  | created fresh =>
      refine ⟨fenced, inv.ordered, fun open_ member => ?_⟩
      obtain ⟨now, row, found, same⟩ := open_
      obtain ⟨found, alive⟩ := Shared.findEvent_some.mp found
      obtain ⟨rfl, rfl⟩ | ⟨-, old⟩ := update_row found
      · obtain ⟨_, found', _⟩ := inv.fenced.running now
        simp [fresh] at found'
      · exact inv.unfenced ⟨now, row, Shared.findEvent_some.mpr ⟨old, alive⟩, same⟩ member
  | claimed owned took =>
      obtain ⟨row, found, unsettled, lower, rfl⟩ := Shared.claimWorkerFence_some took
      obtain ⟨rows, handlers⟩ := turn _ _ _ row owned found unsettled lower
      obtain ⟨-, alive⟩ := Shared.findEvent_some.mp found
      refine ⟨fenced, tripOrdered_claim.mpr inv.ordered, fun open_ member => ?_⟩
      obtain ⟨trip, fence, held⟩ | ⟨apart, was⟩ := open_.of_claim inv.fenced took found
      · subst trip fence
        obtain new | old := List.mem_cons.mp member
        · injection new with _ _ fence
          exact fence.le
        · obtain ⟨row', found', same, bound⟩ := inv.fenced.claims old
          exact bound.trans
            (rows held _ row' (Shared.findEvent_some.mpr ⟨found', same ▸ alive⟩) same)
      · obtain new | old := List.mem_cons.mp member
        · injection new with _ trip fence
          subst trip fence
          exact handlers _ _ _ apart was
        · exact inv.unfenced was old
  | committed running passed =>
      obtain ⟨held, row, found, current, rfl⟩ := Shared.guardedCommit_some passed
      refine ⟨fenced, tripOrdered_commit.mpr ⟨inv.latest running found current held, inv.ordered⟩,
        fun open_ member => ?_⟩
      exact inv.unfenced open_ (by simpa using member)
  | finished running passed =>
      obtain ⟨held, row, found, current, rfl⟩ := Shared.guardedCommit_some passed
      refine ⟨fenced, tripOrdered_commit.mpr ⟨inv.latest running found current held, inv.ordered⟩, ?_⟩
      intro _ event' _ _ _ _ open_ member
      obtain ⟨now, row', found', same⟩ := open_
      obtain ⟨_, _, _, ⟨⟩, _⟩ | ⟨_, was⟩ := running_set now
      obtain ⟨row_, alive⟩ := Shared.findEvent_some.mp found'
      have before : ∃ old, s.shared.findEvent event' = some old ∧ old.tripId = row'.tripId ∧
          old.workerFencingToken = row'.workerFencingToken := by
        obtain ⟨rfl, rfl⟩ | ⟨-, old⟩ := update_row row_
        · exact ⟨row, found, rfl, rfl⟩
        · exact ⟨row', Shared.findEvent_some.mpr ⟨old, alive⟩, rfl, rfl⟩
      obtain ⟨old, found, trip, token⟩ := before
      exact inv.unfenced ⟨was, old, found, trip.trans same.1, token.trans same.2⟩
        (by simpa using member)

theorem Initial.tripFenced (start : System.Initial s) : TripFenced s := by
  have none_ : s.shared.effects = [] := start.2.2.2.2.2.2.2.1
  exact ⟨Initial.fenced start, by simp [TripOrdered, none_], by simp [none_]⟩

theorem Unfenced.commit (open_ : Unfenced t index event trip fence) :
    ∃ u, System.step cfg t (.worker index .commit) = some u ∧
      u.shared.effects = .commit event trip fence false :: t.shared.effects := by
  obtain ⟨⟨payload, token, at_, rfl, rfl⟩, row, found, rfl, current⟩ := open_
  exact ⟨_, by simp [System.step, at_, advance, Shared.guardedCommit, found, current]; rfl, rfl⟩

/-- The condition is exact: a claim out of turn lets the next commit break the order. -/
theorem out_of_turn_breaks (inv : Fenced s) (out : ¬ s.ClaimsInTurn a)
    (stepped : System.step cfg s a = some t) :
    ∃ index u, System.step cfg t (.worker index .commit) = some u ∧
      ¬ TripOrdered u.shared.effects := by
  unfold ClaimsInTurn at out
  split at out
  case h_2 => exact absurd trivial out
  rename_i index
  push Not at out
  obtain ⟨payload, token, lost, row, owned, found, unsettled, lower, out⟩ := out
  simp only [System.step, owned, advance, Shared.claimWorkerFence, found, Option.bind_some, ne_eq,
    unsettled, not_false_eq_true, lower, and_self, if_true, Option.map_some,
    Option.some.injEq] at stepped
  have alive := (Shared.findEvent_some.mp found).2
  have inside : index < s.workers.length := (List.getElem?_eq_some_iff.mp owned).1
  by_cases rows : lost = false → ∀ event other, s.shared.findEvent event = some other →
      other.tripId = row.tripId → other.workerFencingToken ≤ token.fence
  · obtain ⟨index', event, fence, apart, ⟨running, row', found', trip, current⟩, below⟩ := out rows
    have open_ : Unfenced t index' event row.tripId fence := by
      have other : index' ≠ index := by
        rintro rfl
        obtain ⟨_, _, at_, _⟩ := running
        simp [owned] at at_
      subst stepped
      obtain ⟨payload', token', at_, ids⟩ := running
      refine ⟨⟨payload', token', by simpa [List.getElem?_set_ne (Ne.symm other)] using at_, ids⟩,
        row', ?_, trip, current⟩
      obtain ⟨found', alive'⟩ := Shared.findEvent_some.mp found'
      exact Shared.findEvent_some.mpr ⟨by simpa [Function.update_of_ne apart] using found', alive'⟩
    obtain ⟨u, committed, effects⟩ := open_.commit
    refine ⟨index', u, committed, fun ordered => ?_⟩
    rw [effects, tripOrdered_commit] at ordered
    have := ordered.1 payload.eventId token.fence (by subst stepped; exact List.mem_cons_self)
    omega
  · push Not at rows
    obtain ⟨held, event, other, found', trip, above⟩ := rows
    have open_ : Unfenced t index payload.eventId row.tripId token.fence := by
      subst stepped held
      refine ⟨⟨payload, token, List.getElem?_set_self inside, rfl, rfl⟩, _,
        Shared.findEvent_some.mpr ⟨Function.update_self .., alive⟩, rfl, rfl⟩
    obtain ⟨u, committed, effects⟩ := open_.commit
    refine ⟨index, u, committed, fun ordered => ?_⟩
    rw [effects, tripOrdered_commit] at ordered
    obtain zero | claimed := inv.origin (Shared.findEvent_some.mp found').1
    · omega
    · have := ordered.1 event other.workerFencingToken
        (by subst stepped; exact List.mem_cons_of_mem _ (trip ▸ claimed))
      omega

end System

/-- The lock is the trip's but the fence is the row's: in runs whose claims come
in turn, commits for a trip are ordered by its claims. -/
theorem trip_fencing_safe_in_turn (cfg : Settings) (s : System)
    (reached : ((machine cfg).restrict System.ClaimsInTurn).Reachable s) :
    System.TripOrdered s.shared.effects :=
  (reached.invariant (P := System.TripFenced) (fun _ start => System.Initial.tripFenced start)
    fun inv stepped => inv.step (Machine.restrict_step.mp stepped).1
      (Machine.restrict_step.mp stepped).2).ordered

theorem trip_fencing_safe_in_turn_processed :
    ∃ s, ((machine {}).restrict System.ClaimsInTurn).Reachable s ∧
      s.shared.effects = [.commit 7 1 1 true, .claim 7 1 1] ∧
      System.TripOrdered s.shared.effects := by
  have owned : ((machine {}).restrict System.ClaimsInTurn).Reachable _ :=
    Machine.reachable_restrict_of_run
      (.worker 0 .start :: announce 7 ++ approach 0 5) (System.fresh_initial 1) rfl
      (Machine.meetsAlong_of_forall (by simp [announce, approach, System.ClaimsInTurn]))
  have claimed := owned.next (a := .worker 0 .claim) (Machine.restrict_step.mpr ⟨?turn, rfl⟩)
  case turn =>
    rintro payload token lost row ⟨⟩ ⟨⟩ - -
    refine ⟨fun _ event other found _ => ?_, fun index event fence _ open_ => ?_⟩
    · obtain ⟨rfl, rfl⟩ | ⟨_, old⟩ := update_row (Shared.findEvent_some.mp found).1
      · exact Nat.zero_le _
      · contradiction
    · obtain ⟨⟨_, _, at_, _⟩, _⟩ := open_
      have only := List.mem_of_getElem? at_
      contradiction
  have reached := claimed.next (a := .worker 0 .finish)
    (Machine.restrict_step.mpr ⟨by trivial, rfl⟩)
  exact ⟨_, reached, rfl, trip_fencing_safe_in_turn {} _ reached⟩

/-- A Worker paused past its lease commits to event 7 after another has claimed
event 8 of the same trip with the next token: its own row is untouched. -/
theorem trip_fencing_unsafe : ∃ s, (machine {}).Reachable s ∧
    s.shared.effects = [.commit 7 1 1 true, .claim 8 1 2, .claim 7 1 1] ∧
    ¬ System.TripOrdered s.shared.effects := by
  refine ⟨_, Machine.reachable_of_run
    ([.worker 0 .start, .worker 1 .start] ++ announce 7 ++ announce 8 ++
      approach 0 5 ++ [.worker 0 .claim, .tick 30] ++ approach 1 6 ++
      [.worker 1 .claim, .worker 0 .finish])
    (System.fresh_initial 2) rfl, rfl, fun ordered => ?_⟩
  have := ordered [] _ 7 1 1 true 8 2 rfl List.mem_cons_self
  omega

end MapGo.Worker
