import MapGo.Transition

/-! The locks of the in-memory runtime store. A lock token carries the fence it was issued with in
front of its owner. The history keeps every issued lease with its current end and whether it was
given back, so that a lease is live independently of what the store remembers. -/
namespace MapGo.Runtime

/-- `lock_fencing_token`; `none` is its `ValueError`. Issued fences have ASCII digits. -/
def lockFencingToken (token : String) : Option Nat :=
  let chars := token.toList
  let head := chars.takeWhile (· ≠ ':')
  let owner := (chars.dropWhile (· ≠ ':')).drop 1
  let fence := Nat.ofDigitChars 10 head 0
  if ':' ∈ chars ∧ owner ≠ [] ∧ head ≠ [] ∧ head.all Char.isDigit ∧ 1 ≤ fence then some fence
  else none

/-- `uuid.uuid4().hex` -/
structure Uuid where
  hex : String
  nonempty : hex ≠ ""

/-- An issued token with the end of its lease. -/
structure Lease where
  name : String
  fence : Nat
  token : String
  expires : ℚ
  released : Bool := false
  deriving DecidableEq, Repr

structure LockStore where
  now : ℚ
  locks : String → Option (String × ℚ) := fun _ => none
  lockFences : String → Nat := fun _ => 0
  /-- History: every lease that was issued. -/
  leases : List Lease := []

/-- `f"{fence}:{token or uuid.uuid4().hex}"` -/
def lockToken (fence : Nat) (token : Option String) (uuid : Uuid) : String :=
  toString fence ++ ":" ++ match token with
    | some owner => if owner = "" then uuid.hex else owner
    | none => uuid.hex

/-- Change the lease of a token. -/
def amend (name token : String) (change : Lease → Lease) (leases : List Lease) : List Lease :=
  leases.map fun lease => if lease.name = name ∧ lease.token = token then change lease else lease

namespace LockStore

def acquireLock (s : LockStore) (name : String) (ttlSeconds : Int) (token : Option String)
    (uuid : Uuid) : Option String × LockStore :=
  if (s.locks name).any fun current => s.now < current.2 then (none, s)
  else
    let fence := s.lockFences name + 1
    let issued := lockToken fence token uuid
    let expires := s.now + ttlSeconds
    (some issued,
      { s with
        lockFences := Function.update s.lockFences name fence
        locks := Function.update s.locks name (some (issued, expires))
        leases := s.leases ++ [⟨name, fence, issued, expires, false⟩] })

def releaseLock (s : LockStore) (name token : String) : Bool × LockStore :=
  match s.locks name with
  | none => (false, s)
  | some current =>
      if current.1 ≠ token then (false, s)
      else
        (true,
          { s with
            locks := Function.update s.locks name none
            leases := amend name token (fun lease => { lease with released := true }) s.leases })

def renewLock (s : LockStore) (name token : String) (ttlSeconds : Int) : Bool × LockStore :=
  match s.locks name with
  | none => (false, s)
  | some current =>
      if current.1 ≠ token ∨ current.2 ≤ s.now then (false, s)
      else
        let expires := s.now + ttlSeconds
        (true,
          { s with
            locks := Function.update s.locks name (some (token, expires))
            leases := amend name token (fun lease => { lease with expires := expires }) s.leases })

def isLockOwner (s : LockStore) (name token : String) : Bool :=
  (s.locks name).any fun current => current.1 = token ∧ s.now < current.2

end LockStore

inductive LockCall where
  | acquireLock (name : String) (ttlSeconds : Int) (token : Option String) (uuid : Uuid)
  | releaseLock (name token : String)
  | renewLock (name token : String) (ttlSeconds : Int)
  | isLockOwner (name token : String)
  | wait (seconds : ℚ≥0)

open Transition

/-- Any callers on any names, and time between their calls. -/
def lockMachine : Machine LockStore LockCall where
  initial s := s = { now := s.now }
  step s
    | .acquireLock name ttl token uuid => some (s.acquireLock name ttl token uuid).2
    | .releaseLock name token => some (s.releaseLock name token).2
    | .renewLock name token ttl => some (s.renewLock name token ttl).2
    | .isLockOwner _ _ => some s
    | .wait seconds => some { s with now := s.now + seconds }

theorem lockToken_shape (fence : Nat) (token : Option String) (uuid : Uuid) :
    ∃ owner ≠ [], (lockToken fence token uuid).toList = Nat.toDigits 10 fence ++ ':' :: owner := by
  have parts (owner : String) (nonempty : owner ≠ "") : ∃ rest ≠ [],
      (toString fence ++ ":" ++ owner).toList = Nat.toDigits 10 fence ++ ':' :: rest :=
    ⟨owner.toList, by simpa using nonempty, by simp⟩
  cases token with
  | none => exact parts uuid.hex uuid.nonempty
  | some owner =>
      by_cases empty : owner = ""
      · have issued : lockToken fence (some owner) uuid = toString fence ++ ":" ++ uuid.hex := by
          simp only [lockToken, empty, if_true]
        exact issued ▸ parts uuid.hex uuid.nonempty
      · have issued : lockToken fence (some owner) uuid = toString fence ++ ":" ++ owner := by
          simp only [lockToken, empty, if_false]
        exact issued ▸ parts owner empty

/-- The fence of a token survives any owner, also one with separators in it. -/
theorem lockFencingToken_lockToken {fence : Nat} (positive : 0 < fence) (token : Option String)
    (uuid : Uuid) : lockFencingToken (lockToken fence token uuid) = some fence := by
  obtain ⟨owner, nonempty, shape⟩ := lockToken_shape fence token uuid
  have digits : ∀ c ∈ Nat.toDigits 10 fence, c.isDigit = true := fun c member =>
    Nat.isDigit_of_mem_toDigits (by decide) (by decide) member
  have plain : ∀ c ∈ Nat.toDigits 10 fence, decide (c ≠ ':') = true := by
    intro c member
    have digit := digits c member
    apply decide_eq_true
    rintro rfl
    exact absurd digit (by decide)
  have head : (Nat.toDigits 10 fence ++ ':' :: owner).takeWhile (fun c => decide (c ≠ ':')) =
      Nat.toDigits 10 fence := by
    rw [List.takeWhile_append_of_pos plain]
    simp
  have rest : (Nat.toDigits 10 fence ++ ':' :: owner).dropWhile (fun c => decide (c ≠ ':')) =
      ':' :: owner := by
    rw [List.dropWhile_append_of_pos plain]
    simp
  simp only [lockFencingToken, shape, head, rest, List.drop_one, List.tail_cons,
    Nat.ofDigitChars_ten_toDigits]
  rw [if_pos]
  exact ⟨by simp, nonempty, Nat.toDigits_ne_nil, List.all_eq_true.mpr digits, positive⟩

/-- Of two members of a sorted list one comes first. -/
theorem pairwise_total {R : α → α → Prop} {items : List α} (sorted : items.Pairwise R)
    {a b : α} (left : a ∈ items) (right : b ∈ items) : a = b ∨ R a b ∨ R b a := by
  induction sorted with
  | nil => contradiction
  | cons first _ ih =>
      rcases List.mem_cons.mp left with rfl | before
      · rcases List.mem_cons.mp right with rfl | after
        · exact .inl rfl
        · exact .inr (.inl (first b after))
      · rcases List.mem_cons.mp right with rfl | after
        · exact .inr (.inr (first a before))
        · exact ih before after

/-- The token that the lock of a name holds. -/
def LockStore.Holds (s : LockStore) (lease : Lease) : Prop :=
  s.locks lease.name = some (lease.token, lease.expires) ∧ lease.released = false

/-- A lease that was not given back and has time left. -/
def Lease.Live (lease : Lease) (now : ℚ) : Prop := lease.released = false ∧ now < lease.expires

/-- A later lease of the same name has been issued. -/
def LockStore.Superseded (s : LockStore) (lease : Lease) : Prop :=
  ∃ later ∈ s.leases, later.name = lease.name ∧ lease.fence < later.fence

/-- The locks and the history agree. -/
structure Tracked (s : LockStore) : Prop where
  fenced : ∀ lease ∈ s.leases, lockFencingToken lease.token = some lease.fence
  bounded : ∀ lease ∈ s.leases, lease.fence ≤ s.lockFences lease.name
  rising : s.leases.Pairwise fun a b => a.name = b.name → a.fence < b.fence
  held : ∀ lease ∈ s.leases, s.Holds lease ∨ ¬ lease.Live s.now
  known : ∀ name token expires, s.locks name = some (token, expires) →
    ∃ lease ∈ s.leases, lease.name = name ∧ lease.fence = s.lockFences name ∧ s.Holds lease

namespace Tracked
variable {s : LockStore} {a b lease : Lease} {name token : String}

/-- A token names one lease. -/
theorem unique (tracked : Tracked s) (left : a ∈ s.leases) (right : b ∈ s.leases)
    (name : a.name = b.name) (token : a.token = b.token) : a = b := by
  have fence : a.fence = b.fence := by
    have first := tracked.fenced a left
    rw [token, tracked.fenced b right] at first
    exact (Option.some.inj first).symm
  rcases pairwise_total tracked.rising left right with same | before | after
  · exact same
  · exact absurd (before name) (by omega)
  · exact absurd (after name.symm) (by omega)

theorem wait (tracked : Tracked s) (seconds : ℚ≥0) :
    Tracked { s with now := s.now + seconds } where
  fenced := tracked.fenced
  bounded := tracked.bounded
  rising := tracked.rising
  held lease member := by
    rcases tracked.held lease member with holds | ended
    · exact .inl holds
    · right
      rintro ⟨kept, left⟩
      have later : s.now ≤ s.now + seconds := le_add_of_nonneg_right seconds.2
      exact ended ⟨kept, later.trans_lt left⟩
  known := tracked.known

theorem acquire (tracked : Tracked s) (name : String) (ttl : Int) (token : Option String)
    (uuid : Uuid) : Tracked (s.acquireLock name ttl token uuid).2 := by
  unfold LockStore.acquireLock
  split
  · exact tracked
  · rename_i free
    have fresh (lease) (member : lease ∈ s.leases) (same : lease.name = name)
        (holds : s.Holds lease) : ¬ lease.Live s.now := by
      rintro ⟨-, left⟩
      simp [← same, holds.1, left] at free
    constructor
    case fenced =>
      intro lease member
      rcases List.mem_append.mp member with old | new
      · exact tracked.fenced lease old
      · rw [List.mem_singleton.mp new]
        exact lockFencingToken_lockToken (Nat.succ_pos _) token uuid
    case bounded =>
      intro lease member
      rcases List.mem_append.mp member with old | new
      · have bound := tracked.bounded lease old
        by_cases same : lease.name = name
        · simp only [same, Function.update_self] at bound ⊢
          omega
        · simpa only [Function.update_of_ne same] using bound
      · rw [List.mem_singleton.mp new]
        simp
    case rising =>
      refine List.pairwise_append.mpr ⟨tracked.rising, List.pairwise_singleton .., ?_⟩
      intro lease old other new same
      rw [List.mem_singleton.mp new] at same ⊢
      have bound := tracked.bounded lease old
      rw [show lease.name = name from same] at bound
      exact Nat.lt_succ_of_le bound
    case held =>
      intro lease member
      rcases List.mem_append.mp member with old | new
      · rcases tracked.held lease old with holds | ended
        · by_cases same : lease.name = name
          · exact .inr (fresh lease old same holds)
          · exact .inl ⟨by simpa only [Function.update_of_ne same] using holds.1, holds.2⟩
        · exact .inr ended
      · rw [List.mem_singleton.mp new]
        exact .inl ⟨Function.update_self .., rfl⟩
    case known =>
      intro other token' expires found
      by_cases same : other = name
      · subst same
        exact ⟨_, List.mem_append_right _ (List.mem_singleton_self _), rfl, by simp,
          Function.update_self .., rfl⟩
      · simp only [Function.update_of_ne same] at found ⊢
        obtain ⟨lease, member, named, fence, holds⟩ := tracked.known other token' expires found
        refine ⟨lease, List.mem_append_left _ member, named, fence, ?_, holds.2⟩
        simpa only [named, Function.update_of_ne same] using named ▸ holds.1

/-- A change to the lease of the held token: it stays held until another time, or is over. -/
structure Amends (s : LockStore) (name token : String) (change : Lease → Lease)
    (locks : String → Option (String × ℚ)) : Prop where
  names : ∀ lease, (change lease).name = lease.name
  fences : ∀ lease, (change lease).fence = lease.fence
  tokens : ∀ lease, (change lease).token = lease.token
  others : ∀ other, other ≠ name → locks other = s.locks other
  holder : ∃ expires, s.locks name = some (token, expires)
  changed : ∀ lease, lease.released = false →
    (locks name = some (token, (change lease).expires) ∧ (change lease).released = false) ∨
      (locks name = none ∧ (change lease).released = true)

theorem mem_amend {change : Lease → Lease} : lease ∈ amend name token change s.leases ↔
    (∃ old ∈ s.leases, old.name = name ∧ old.token = token ∧ change old = lease) ∨
      (lease ∈ s.leases ∧ ¬ (lease.name = name ∧ lease.token = token)) := by
  simp only [amend, List.mem_map]
  constructor
  · rintro ⟨old, member, rfl⟩
    split
    · rename_i same
      exact .inl ⟨old, member, same.1, same.2, rfl⟩
    · rename_i other
      exact .inr ⟨member, other⟩
  · rintro (⟨old, member, named, token, rfl⟩ | ⟨member, other⟩)
    · exact ⟨old, member, if_pos ⟨named, token⟩⟩
    · exact ⟨lease, member, if_neg other⟩

theorem amends (tracked : Tracked s) {change : Lease → Lease} {locks}
    (amends : Amends s name token change locks) :
    Tracked { s with locks := locks, leases := amend name token change s.leases } := by
  obtain ⟨expires, holder⟩ := amends.holder
  obtain ⟨held, present, named, fence, holds⟩ := tracked.known name token expires holder
  have heldToken : held.token = token := by
    have both := holds.1
    rw [named, holder] at both
    exact (Prod.mk.inj (Option.some.inj both)).1.symm
  have matched (old) (member : old ∈ s.leases) (same : old.name = name) (tok : old.token = token) :
      old = held := tracked.unique member present (same.trans named.symm) (tok.trans heldToken.symm)
  constructor
  case fenced =>
    intro lease member
    rcases mem_amend.mp member with ⟨old, present, -, -, rfl⟩ | ⟨present, -⟩
    · rw [amends.tokens, amends.fences]
      exact tracked.fenced old present
    · exact tracked.fenced lease present
  case bounded =>
    intro lease member
    rcases mem_amend.mp member with ⟨old, present, -, -, rfl⟩ | ⟨present, -⟩
    · rw [amends.names, amends.fences]
      exact tracked.bounded old present
    · exact tracked.bounded lease present
  case rising =>
    refine List.pairwise_map.mpr (tracked.rising.imp fun {a b} rise => ?_)
    have names (lease : Lease) : (if lease.name = name ∧ lease.token = token then change lease
        else lease).name = lease.name := by split <;> simp [amends.names]
    have fences (lease : Lease) : (if lease.name = name ∧ lease.token = token then change lease
        else lease).fence = lease.fence := by split <;> simp [amends.fences]
    rw [names, names, fences, fences]
    exact rise
  case held =>
    intro lease member
    rcases mem_amend.mp member with ⟨old, was, same, tok, rfl⟩ | ⟨member, other⟩
    · rw [matched old was same tok]
      rcases amends.changed held holds.2 with ⟨kept, unreleased⟩ | ⟨-, gone⟩
      · refine .inl ⟨?_, unreleased⟩
        rw [amends.names, amends.tokens, named, heldToken]
        exact kept
      · exact .inr fun live => by simp [live.1] at gone
    · rcases tracked.held lease member with holds | ended
      · have apart : lease.name ≠ name := by
          intro same
          have both := holds.1
          rw [same, holder] at both
          exact other ⟨same, (Prod.mk.inj (Option.some.inj both)).1.symm⟩
        exact .inl ⟨(amends.others _ apart).trans holds.1, holds.2⟩
      · exact .inr ended
  case known =>
    intro other tok expires found
    by_cases same : other = name
    · subst same
      rcases amends.changed held holds.2 with ⟨kept, unreleased⟩ | ⟨gone, -⟩
      · refine ⟨change held, mem_amend.mpr (.inl ⟨held, present, named, heldToken, rfl⟩),
          (amends.names held).trans named, (amends.fences held).trans fence, ?_, unreleased⟩
        rw [amends.names, amends.tokens, named, heldToken]
        exact kept
      · simp [gone] at found
    · obtain ⟨lease, member, label, fence, holds⟩ :=
        tracked.known other tok expires ((amends.others other same).symm.trans found)
      refine ⟨lease, mem_amend.mpr (.inr ⟨member, fun match_ => same (label ▸ match_.1)⟩), label,
        fence, ?_, holds.2⟩
      exact (amends.others _ (label ▸ same)).trans holds.1

theorem release (tracked : Tracked s) (name token : String) :
    Tracked (s.releaseLock name token).2 := by
  unfold LockStore.releaseLock
  split
  · exact tracked
  · rename_i current found
    split
    · exact tracked
    · rename_i owned
      have owner : current.1 = token := not_not.mp owned
      refine tracked.amends ⟨fun _ => rfl, fun _ => rfl, fun _ => rfl,
        fun other apart => Function.update_of_ne apart .., ⟨current.2, ?_⟩, fun lease _ => ?_⟩
      · rw [found, ← owner]
      · exact .inr ⟨Function.update_self .., rfl⟩

theorem renew (tracked : Tracked s) (name token : String) (ttl : Int) :
    Tracked (s.renewLock name token ttl).2 := by
  unfold LockStore.renewLock
  split
  · exact tracked
  · rename_i current found
    split
    · exact tracked
    · rename_i owned
      have owner : current.1 = token := not_not.mp (not_or.mp owned).1
      refine tracked.amends ⟨fun _ => rfl, fun _ => rfl, fun _ => rfl,
        fun other apart => Function.update_of_ne apart .., ⟨current.2, ?_⟩, fun lease kept => ?_⟩
      · rw [found, ← owner]
      · exact .inl ⟨Function.update_self .., kept⟩

end Tracked

theorem tracked_reachable {s : LockStore} (reached : lockMachine.Reachable s) : Tracked s := by
  refine reached.invariant (fun s start => ?_) fun {s call t} tracked stepped => ?_
  · rw [start]
    exact ⟨by simp, by simp, .nil, by simp, by simp⟩
  · cases call with
    | acquireLock name ttl token uuid =>
        cases Option.some.inj stepped
        exact tracked.acquire name ttl token uuid
    | releaseLock name token =>
        cases Option.some.inj stepped
        exact tracked.release name token
    | renewLock name token ttl =>
        cases Option.some.inj stepped
        exact tracked.renew name token ttl
    | isLockOwner =>
        cases Option.some.inj stepped
        exact tracked
    | wait seconds =>
        cases Option.some.inj stepped
        exact tracked.wait seconds

section specification
variable {s : LockStore} {lease : Lease} {name token : String}

/-- The owners that the store answers for are the live leases. -/
theorem Tracked.owner_iff (tracked : Tracked s) : s.isLockOwner name token = true ↔
    ∃ lease ∈ s.leases, lease.name = name ∧ lease.token = token ∧ lease.Live s.now := by
  simp only [LockStore.isLockOwner, Option.any_eq_true, decide_eq_true_eq]
  constructor
  · rintro ⟨⟨held, expires⟩, found, rfl, left⟩
    obtain ⟨lease, member, named, -, holds⟩ := tracked.known name _ _ found
    have same := holds.1
    rw [named, found] at same
    obtain ⟨token, expiry⟩ := Prod.mk.inj (Option.some.inj same)
    exact ⟨lease, member, named, token.symm, holds.2, expiry ▸ left⟩
  · rintro ⟨lease, member, rfl, rfl, live⟩
    rcases tracked.held lease member with holds | ended
    · exact ⟨_, holds.1, rfl, live.2⟩
    · exact absurd live ended

/-- The lease of the token that a name holds. -/
theorem Tracked.current (tracked : Tracked s) (member : lease ∈ s.leases) {expires : ℚ}
    (found : s.locks lease.name = some (lease.token, expires)) :
    lease.expires = expires ∧ lease.fence = s.lockFences lease.name := by
  obtain ⟨current, present, same, latest, holds⟩ := tracked.known _ _ _ found
  have both := holds.1
  rw [same, found] at both
  obtain ⟨token, expiry⟩ := Prod.mk.inj (Option.some.inj both)
  rw [tracked.unique present member same token.symm] at latest expiry
  exact ⟨expiry.symm, latest⟩

/-- A superseded token is not the one that its name holds. -/
theorem Tracked.superseded (tracked : Tracked s) (member : lease ∈ s.leases)
    (superseded : s.Superseded lease) {expires : ℚ} :
    s.locks lease.name ≠ some (lease.token, expires) := by
  intro found
  obtain ⟨later, after, named, fence⟩ := superseded
  have latest := (tracked.current member found).2
  have bound := tracked.bounded later after
  rw [named] at bound
  omega

/-- What the locks promise in a state, with the history of the run. -/
structure LockSpec (s : LockStore) : Prop where
  exclusive : ∀ a ∈ s.leases, ∀ b ∈ s.leases, a.name = b.name → a.Live s.now → b.Live s.now → a = b
  owner : ∀ name token, s.isLockOwner name token = true ↔
    ∃ lease ∈ s.leases, lease.name = name ∧ lease.token = token ∧ lease.Live s.now
  rising : s.leases.Pairwise fun a b => a.name = b.name → a.fence < b.fence
  fencing : ∀ lease ∈ s.leases, lockFencingToken lease.token = some lease.fence
  renewing : ∀ lease ∈ s.leases, lease.expires ≤ s.now ∨ s.Superseded lease →
    ∀ ttlSeconds, s.renewLock lease.name lease.token ttlSeconds = (false, s)
  releasing : ∀ lease ∈ s.leases, s.Superseded lease →
    s.releaseLock lease.name lease.token = (false, s)

/-- The locks keep their promises in every run. -/
theorem locks_specified (reached : lockMachine.Reachable s) : LockSpec s := by
  have tracked := tracked_reachable reached
  constructor
  case exclusive =>
    intro a left b right name live other
    rcases tracked.held a left with first | ended
    · rcases tracked.held b right with second | ended
      · have both := first.1
        rw [name, second.1] at both
        exact tracked.unique left right name (Prod.mk.inj (Option.some.inj both)).1.symm
      · exact absurd other ended
    · exact absurd live ended
  case owner => exact fun _ _ => tracked.owner_iff
  case rising => exact tracked.rising
  case fencing => exact tracked.fenced
  case renewing =>
    intro lease member stale ttl
    unfold LockStore.renewLock
    split
    · rfl
    · rename_i current found
      refine if_pos ?_
      by_contra kept
      obtain ⟨same, left⟩ := not_or.mp kept
      have held : s.locks lease.name = some (lease.token, current.2) := by
        rw [found, ← not_not.mp same]
      rcases stale with ended | superseded
      · rw [(tracked.current member held).1] at ended
        exact left ended
      · exact tracked.superseded member superseded held
  case releasing =>
    intro lease member superseded
    unfold LockStore.releaseLock
    split
    · rfl
    · rename_i current found
      refine if_pos fun same => ?_
      exact tracked.superseded member superseded (show s.locks lease.name = some (lease.token, current.2) by rw [found, ← same])

/-- Two owners with separators in their names, one after the other. -/
theorem locks_specified_twice : ∃ s : LockStore, (s.leases.map Lease.fence = [1, 2]) ∧ LockSpec s := by
  let uuid : Uuid := ⟨"9f1c", by decide⟩
  let script : List LockCall := [.acquireLock "trip-mutate:7" 20 (some "worker:a") uuid, .wait 30,
    .renewLock "trip-mutate:7" "1:worker:a" 20, .acquireLock "trip-mutate:7" 20 none uuid]
  have ran : ∃ s, lockMachine.run { now := 0 } script = some s := ⟨_, rfl⟩
  obtain ⟨s, ran⟩ := ran
  have fences : (lockMachine.run { now := 0 } script).map (fun s => s.leases.map Lease.fence) =
      some [1, 2] := by decide +kernel
  rw [ran] at fences
  have start : lockMachine.initial { now := 0 } := rfl
  exact ⟨s, Option.some.inj fences, locks_specified (Machine.reachable_of_run script start ran)⟩

end specification
end MapGo.Runtime
