import MapGo.Text
import MapGo.Transition

/-! Friends. A request between two users is confirmed by the addressee alone; requests, answers,
deletions and looks at a friend's favourites come between the awaits of one another. -/
namespace MapGo.Server

open Transition

structure Person where
  id : Nat
  username : String
  deriving DecidableEq, Repr

inductive FriendStatus where
  | pending | accepted
  deriving DecidableEq, Repr

/-- A row of `friends` -/
structure Friend where
  id : Nat
  userId : Nat
  friendId : Nat
  pairKey : String
  status : FriendStatus := .pending
  deriving DecidableEq, Repr

def pairKey (first second : Nat) : String :=
  toString (min first second) ++ ":" ++ toString (max first second)

namespace Friend

def between (row : Friend) (first second : Nat) : Bool :=
  (row.userId = first && row.friendId = second) || (row.userId = second && row.friendId = first)

def involves (row : Friend) (user : Nat) : Bool := row.userId = user || row.friendId = user

/-- The other one of a row that involves the user. -/
def other (row : Friend) (user : Nat) : Nat := if row.userId = user then row.friendId else row.userId

end Friend

/-- A request between two of its awaits. -/
inductive FriendErrand where
  /-- `request_friend`, before and after it has looked for a row. -/
  | asking (user target : Nat)
  | adding (user target : Nat)
  | answering (id user : Nat) (accept : Bool)
  | removing (id : Nat)
  /-- `friend_favorites`, after its check. -/
  | viewing (id user friend : Nat)
  deriving DecidableEq, Repr

inductive FriendDeed where
  | requested (id user friend : Nat)
  | confirmed (id user : Nat)
  | removed (id : Nat)
  /-- The favourites of a friend were shown to the user. -/
  | disclosed (id user friend : Nat)
  deriving DecidableEq, Repr

/-- What becomes of a row. -/
def FriendDeed.about (id : Nat) : FriendDeed → Bool
  | .requested row _ _ | .confirmed row _ | .removed row => row = id
  | .disclosed .. => false

structure Social where
  people : List Person := []
  /-- Ids are drawn from sequences. -/
  nextPerson : Nat := 1
  rows : List Friend := []
  nextId : Nat := 1
  errands : List FriendErrand := []
  /-- History -/
  log : List FriendDeed := []
  deriving DecidableEq, Repr

inductive FriendAction where
  | register (username : String)
  | deleteUser (userId : Nat)
  | request (user : Nat) (username : String)
  | check (place : Nat)
  /-- The commit of a request, unless the database is busy. -/
  | add (place : Nat) (busy : Bool)
  | respond (user id : Nat) (accept : Bool)
  | delete (user id : Nat)
  | view (user friend : Nat)
  /-- The commit of an answer or a deletion, or the reading of favourites. -/
  | settle (place : Nat) (fails : Bool)
  deriving DecidableEq, Repr

/-- What `list_friends` shows of a row: its id, and the id and the name of the other one. -/
structure FriendItem where
  id : Nat
  uid : Nat
  username : String
  deriving DecidableEq, Repr

structure FriendLists where
  accepted : List FriendItem := []
  incoming : List FriendItem := []
  outgoing : List FriendItem := []
  deriving DecidableEq, Repr

namespace Social

/-- The rows that are chosen go. -/
def drop (p : Friend → Bool) (s : Social) : Social :=
  { s with
    rows := s.rows.filter fun row => !p row
    log := s.log ++ (s.rows.filter p).map fun row => .removed row.id }

/-- The answer to a request, if its row is still there. -/
def answer (id user : Nat) (accept : Bool) (s : Social) : Social :=
  if accept then
    if id ∈ s.rows.map Friend.id then
      { s with
        rows := s.rows.map fun row => if row.id = id then { row with status := .accepted } else row
        log := s.log ++ [.confirmed id user] }
    else s
  else s.drop fun row => row.id = id

/-- A new row, if the database takes it: it is the first between the two, and both are there. -/
def insert (user target : Nat) (s : Social) : Option Social :=
  if (∃ row ∈ s.rows, row.pairKey = pairKey user target ∨
      (row.userId = user ∧ row.friendId = target)) ∨
      user ∉ s.people.map Person.id ∨ target ∉ s.people.map Person.id then none
  else some
    { s with
      rows := s.rows ++ [⟨s.nextId, user, target, pairKey user target, .pending⟩]
      nextId := s.nextId + 1
      log := s.log ++ [.requested s.nextId user target] }

/-- `accepted_friend`, with the id of the row. -/
def acceptedFriend (s : Social) (first second : Nat) : Option Nat :=
  (s.rows.find? fun row => row.status = .accepted && row.between first second).map Friend.id

def settle (s : Social) : FriendErrand → Option Social
  | .answering id user accept => some (s.answer id user accept)
  | .removing id => some (s.drop fun row => row.id = id)
  | .viewing id user friend => some { s with log := s.log ++ [.disclosed id user friend] }
  | .asking .. | .adding .. => none

def machine : Machine Social FriendAction where
  initial s := s = {}
  step s
    | .register username =>
        if username ∈ s.people.map Person.username then some s
        else some { s with
          people := s.people ++ [⟨s.nextPerson, username⟩]
          nextPerson := s.nextPerson + 1 }
    | .deleteUser userId =>
        -- the rows go with the user by the rule of the foreign keys
        some { s.drop fun row => row.involves userId with
          people := s.people.filter fun person => person.id ≠ userId }
    | .request user username => match s.people.find? fun person => person.username = username with
        | some target =>
            if target.id = user then some s
            else some { s with errands := s.errands ++ [.asking user target.id] }
        | none => some s
    | .check place => match s.errands[place]? with
        | some (.asking user target) =>
            if s.rows.any fun row => row.between user target then
              some { s with errands := s.errands.eraseIdx place }
            else some { s with errands := s.errands.set place (.adding user target) }
        | _ => none
    | .add place busy => match s.errands[place]? with
        | some (.adding user target) =>
            let rest := { s with errands := s.errands.eraseIdx place }
            some (if busy then rest else (rest.insert user target).getD rest)
        | _ => none
    | .respond user id accept => match s.rows.find? fun row => row.id = id with
        | some row =>
            if row.friendId = user ∧ row.status = .pending then
              some { s with errands := s.errands ++ [.answering id user accept] }
            else some s
        | none => some s
    | .delete user id => match s.rows.find? fun row => row.id = id with
        | some row =>
            if row.involves user then some { s with errands := s.errands ++ [.removing id] }
            else some s
        | none => some s
    | .view user friend => match s.acceptedFriend user friend with
        | some id => some { s with errands := s.errands ++ [.viewing id user friend] }
        | none => some s
    | .settle place fails => match s.errands[place]? with
        | some errand =>
            let rest := { s with errands := s.errands.eraseIdx place }
            (rest.settle errand).map fun settled => if fails then rest else settled
        | none => none

/-- `list_friends`, whose people are read after its rows. -/
def listFriends (rows : List Friend) (people : List Person) (user : Nat) : FriendLists :=
  let entries := (rows.filter fun row => row.involves user).filterMap fun row =>
    (people.find? fun person => person.id = row.other user).map fun person =>
      (row, (⟨row.id, row.other user, person.username⟩ : FriendItem))
  { accepted := (entries.filter fun entry => entry.1.status = .accepted).map Prod.snd
    incoming := (entries.filter fun entry =>
      entry.1.status ≠ .accepted && entry.1.friendId = user).map Prod.snd
    outgoing := (entries.filter fun entry =>
      entry.1.status ≠ .accepted && entry.1.friendId ≠ user).map Prod.snd }

/-- The user and the friend are those of a request that its addressee has confirmed. -/
def Befriended (log : List FriendDeed) (id user friend : Nat) : Prop :=
  ∃ first second, .requested id first second ∈ log ∧ .confirmed id second ∈ log ∧
    ((first = user ∧ second = friend) ∨ (first = friend ∧ second = user))

/-- Favourites are shown to friends. -/
def Disclosed (log : List FriendDeed) : Prop :=
  ∀ place id user friend, log[place]? = some (.disclosed id user friend) →
    Befriended (log.take place) id user friend

/-- The history of a row: its request, and then only confirmations by the addressee. -/
def Recorded (log : List FriendDeed) (row : Friend) : Prop :=
  ∃ n, log.filter (·.about row.id) = .requested row.id row.userId row.friendId ::
      List.replicate n (.confirmed row.id row.friendId) ∧
    (row.status = .accepted ↔ 0 < n)

variable {s t : Social} {row : Friend} {log more : List FriendDeed} {id user friend target : Nat}
  {first second : Nat} {errand : FriendErrand}

theorem Befriended.mono (befriended : Befriended log id user friend) (inside : log ⊆ more) :
    Befriended more id user friend := by
  obtain ⟨first, second, requested, confirmed, same⟩ := befriended
  exact ⟨first, second, inside requested, inside confirmed, same⟩

theorem Disclosed.append (disclosed : Disclosed log)
    (grounds : ∀ id user friend, .disclosed id user friend ∈ more → Befriended log id user friend) :
    Disclosed (log ++ more) := by
  intro place id user friend found
  by_cases earlier : place < log.length
  · rw [List.getElem?_append_left earlier] at found
    rw [List.take_append_of_le_length earlier.le]
    exact disclosed place id user friend found
  · rw [List.getElem?_append_right (not_lt.mp earlier)] at found
    refine (grounds id user friend (List.mem_of_getElem? found)).mono ?_
    rw [List.take_append, List.take_of_length_le (not_lt.mp earlier)]
    exact List.subset_append_left _ _

theorem Recorded.mem (recorded : Recorded log row) :
    .requested row.id row.userId row.friendId ∈ log ∧
      (row.status = .accepted → .confirmed row.id row.friendId ∈ log) := by
  obtain ⟨n, trail, settled⟩ := recorded
  constructor
  · exact List.mem_of_mem_filter (trail ▸ List.mem_cons_self)
  · intro accepted
    refine List.mem_of_mem_filter (p := fun deed => deed.about row.id) (trail ▸ ?_)
    exact List.mem_cons_of_mem _
      (List.mem_replicate.mpr ⟨Nat.pos_iff_ne_zero.mp (settled.mp accepted), rfl⟩)

theorem pairKey_comm : pairKey first second = pairKey second first := by
  rw [pairKey, pairKey, min_comm, max_comm]

theorem pairKey_inj {other : Nat} (same : pairKey first second = pairKey id other) :
    (first = id ∧ second = other) ∨ (first = other ∧ second = id) := by
  have chars : (toString (min first second)).toList ++ ':' :: (toString (max first second)).toList =
      (toString (min id other)).toList ++ ':' :: (toString (max id other)).toList := by
    have whole := congrArg String.toList same
    simp only [pairKey, String.toList_append, List.append_assoc] at whole
    exact whole
  obtain ⟨lower, -, upper⟩ :=
    (List.append_cons_inj_of_notMem Text.number_plain Text.number_plain).mp chars
  have lower : min first second = min id other :=
    Nat.repr_injective (String.toList_injective lower)
  have upper : max first second = max id other :=
    Nat.repr_injective (String.toList_injective upper)
  omega

theorem between_iff : row.between first second = true ↔
    (row.userId = first ∧ row.friendId = second) ∨ (row.userId = second ∧ row.friendId = first) := by
  simp [Friend.between]

theorem involves_other_iff :
    row.involves first = true ∧ row.other first = second ↔ row.between first second = true := by
  rw [between_iff]
  unfold Friend.involves Friend.other
  by_cases mine : row.userId = first
  · simp [mine]
    omega
  · simp [mine]
    omega

def Standing (s : Social) : FriendErrand → Prop
  | .asking user target | .adding user target => user ≠ target
  | .answering id user _ => id < s.nextId ∧ ∀ row ∈ s.rows, row.id = id → row.friendId = user
  | .viewing id user friend => Befriended s.log id user friend
  | .removing _ => True

/-- What every run keeps. -/
structure Sound (s : Social) : Prop where
  people : (s.people.map Person.id).Nodup
  older : ∀ person ∈ s.people, person.id < s.nextPerson
  ids : (s.rows.map Friend.id).Nodup
  fresh : ∀ row ∈ s.rows, row.id < s.nextId
  apart : ∀ row ∈ s.rows, row.userId ≠ row.friendId
  keyed : ∀ row ∈ s.rows, row.pairKey = Server.pairKey row.userId row.friendId
  single : (s.rows.map Friend.pairKey).Nodup
  owned : ∀ row ∈ s.rows, row.userId ∈ s.people.map Person.id ∧ row.friendId ∈ s.people.map Person.id
  recorded : ∀ row ∈ s.rows, Recorded s.log row
  past : ∀ deed ∈ s.log, ∀ id, deed.about id = true → id < s.nextId
  disclosed : Disclosed s.log
  standing : ∀ errand ∈ s.errands, Standing s errand

/-- Rows come with new ids and keep their users; the history grows. -/
structure Follows (s t : Social) : Prop where
  next : s.nextId ≤ t.nextId
  rows : ∀ row ∈ t.rows, row.id < s.nextId →
    ∃ old ∈ s.rows, old.id = row.id ∧ old.friendId = row.friendId
  log : s.log ⊆ t.log

theorem Follows.of_subset (next : t.nextId = s.nextId) (rows : t.rows ⊆ s.rows)
    (log : s.log ⊆ t.log) : Follows s t :=
  ⟨next.ge, fun row inside _ => ⟨row, rows inside, rfl, rfl⟩, log⟩

theorem Standing.mono (stands : Standing s errand) (follows : Follows s t) : Standing t errand := by
  cases errand with
  | asking user target => exact stands
  | adding user target => exact stands
  | answering id user accept =>
      refine ⟨stands.1.trans_le follows.next, fun row member same => ?_⟩
      obtain ⟨old, before, alike, friend⟩ := follows.rows row member (same ▸ stands.1)
      exact friend ▸ stands.2 old before (alike.trans same)
  | removing id => trivial
  | viewing id user friend => exact Befriended.mono stands follows.log

theorem Sound.edit (sound : Sound s) {errands : List FriendErrand}
    (standing : ∀ errand ∈ errands, Standing s errand) : Sound { s with errands := errands } :=
  { sound with
    standing := fun errand member => (standing errand member).mono
      (.of_subset rfl (List.Subset.refl _) (List.Subset.refl _)) }

theorem Sound.append (sound : Sound s) (stands : Standing s errand) :
    Sound { s with errands := s.errands ++ [errand] } := by
  refine sound.edit fun other member => ?_
  rcases List.mem_append.mp member with before | last
  · exact sound.standing other before
  · exact List.mem_singleton.mp last ▸ stands

theorem Sound.erase (sound : Sound s) (place : Nat) :
    Sound { s with errands := s.errands.eraseIdx place } :=
  sound.edit fun errand member => sound.standing errand (List.mem_of_mem_eraseIdx member)

/-- Rows are deleted, and maybe a user whose rows are all among them. -/
theorem Sound.drop (sound : Sound s) (p : Friend → Bool) (q : Person → Bool)
    (owned : ∀ row ∈ s.rows, p row = false → ∀ person ∈ s.people,
      row.involves person.id = true → q person = true) :
    Sound { s.drop p with people := s.people.filter q } := by
  have follows : Follows s { s.drop p with people := s.people.filter q } :=
    .of_subset rfl (List.filter_subset_self _) (List.subset_append_left _ _)
  have stays {row : Friend} (member : row ∈ s.rows) (kept : p row = false) {user : Nat}
      (mine : row.involves user = true) (there : user ∈ s.people.map Person.id) :
      user ∈ (s.people.filter q).map Person.id := by
    obtain ⟨person, inside, rfl⟩ := List.mem_map.mp there
    exact List.mem_map.mpr
      ⟨person, List.mem_filter.mpr ⟨inside, owned row member kept person inside mine⟩, rfl⟩
  refine ⟨sound.people.sublist (List.filter_sublist.map _), ?_,
    sound.ids.sublist (List.filter_sublist.map _), ?_, ?_, ?_,
    sound.single.sublist (List.filter_sublist.map _), ?_, ?_, ?_, ?_,
    fun errand member => (sound.standing errand member).mono follows⟩
  · exact fun person member => sound.older person (List.mem_of_mem_filter member)
  · exact fun row member => sound.fresh row (List.mem_of_mem_filter member)
  · exact fun row member => sound.apart row (List.mem_of_mem_filter member)
  · exact fun row member => sound.keyed row (List.mem_of_mem_filter member)
  · intro row member
    obtain ⟨before, kept⟩ := List.mem_filter.mp member
    have kept : p row = false := by simpa using kept
    obtain ⟨user, friend⟩ := sound.owned row before
    exact ⟨stays before kept (by simp [Friend.involves]) user,
      stays before kept (by simp [Friend.involves]) friend⟩
  · intro row member
    obtain ⟨before, kept⟩ := List.mem_filter.mp member
    obtain ⟨n, trail, settled⟩ := sound.recorded row before
    refine ⟨n, ?_, settled⟩
    -- the rows that go have other ids
    have silent : ((s.rows.filter p).map fun gone => FriendDeed.removed gone.id).filter
        (·.about row.id) = [] := by
      refine List.filter_eq_nil_iff.mpr fun deed inside => ?_
      obtain ⟨gone, chosen, rfl⟩ := List.mem_map.mp inside
      obtain ⟨earlier, leaves⟩ := List.mem_filter.mp chosen
      simp only [FriendDeed.about, decide_eq_true_eq]
      intro same
      rw [List.inj_on_of_nodup_map sound.ids earlier before same] at leaves
      simp [leaves] at kept
    simpa [Social.drop, List.filter_append, silent] using trail
  · intro deed member id about
    rcases List.mem_append.mp member with before | last
    · exact sound.past deed before id about
    · obtain ⟨gone, chosen, rfl⟩ := List.mem_map.mp last
      exact of_decide_eq_true about ▸ sound.fresh gone (List.mem_of_mem_filter chosen)
  · refine sound.disclosed.append fun id user friend member => ?_
    obtain ⟨gone, -, same⟩ := List.mem_map.mp member
    cases same

theorem Sound.leave (sound : Sound s) (p : Friend → Bool) : Sound (s.drop p) := by
  have kept := sound.drop p (fun _ => true) fun _ _ _ _ _ _ => rfl
  have same : { s.drop p with people := s.people.filter fun _ => true } = s.drop p := by
    simp [Social.drop]
  exact same ▸ kept

theorem Sound.accept (sound : Sound s) (stands : Standing s (.answering id user true)) :
    Sound (s.answer id user true) := by
  simp only [answer, if_true]
  split
  swap
  · exact sound
  rename_i there
  have updated (row : Friend) :
      (if row.id = id then { row with status := .accepted } else row).id = row.id ∧
      (if row.id = id then { row with status := .accepted } else row).userId = row.userId ∧
      (if row.id = id then { row with status := .accepted } else row).friendId = row.friendId ∧
      (if row.id = id then { row with status := .accepted } else row).pairKey = row.pairKey := by
    split <;> exact ⟨rfl, rfl, rfl, rfl⟩
  have follows : Follows s { s with
      rows := s.rows.map fun row => if row.id = id then { row with status := .accepted } else row
      log := s.log ++ [.confirmed id user] } := by
    refine ⟨le_rfl, fun row member _ => ?_, List.subset_append_left _ _⟩
    obtain ⟨old, before, rfl⟩ := List.mem_map.mp member
    exact ⟨old, before, (updated old).1.symm, (updated old).2.2.1.symm⟩
  refine ⟨sound.people, sound.older, ?_, ?_, ?_, ?_, ?_, ?_, ?_, ?_, ?_,
    fun errand member => (sound.standing errand member).mono follows⟩
  · simpa only [List.map_map, Function.comp_def, updated] using sound.ids
  · intro row member
    obtain ⟨old, before, rfl⟩ := List.mem_map.mp member
    rw [(updated old).1]
    exact sound.fresh old before
  · intro row member
    obtain ⟨old, before, rfl⟩ := List.mem_map.mp member
    rw [(updated old).2.1, (updated old).2.2.1]
    exact sound.apart old before
  · intro row member
    obtain ⟨old, before, rfl⟩ := List.mem_map.mp member
    rw [(updated old).2.1, (updated old).2.2.1, (updated old).2.2.2]
    exact sound.keyed old before
  · simpa only [List.map_map, Function.comp_def, updated] using sound.single
  · intro row member
    obtain ⟨old, before, rfl⟩ := List.mem_map.mp member
    rw [(updated old).2.1, (updated old).2.2.1]
    exact sound.owned old before
  · intro row member
    obtain ⟨old, before, rfl⟩ := List.mem_map.mp member
    obtain ⟨n, trail, settled⟩ := sound.recorded old before
    by_cases mine : old.id = id
    · have addressee : old.friendId = user := stands.2 old before mine
      refine ⟨n + 1, ?_, by simp [mine]⟩
      rw [(updated old).1, (updated old).2.1, (updated old).2.2.1, List.filter_append, trail,
        List.replicate_succ', List.cons_append]
      simp [FriendDeed.about, mine, addressee]
    · refine ⟨n, ?_, by simpa [mine] using settled⟩
      rw [(updated old).1, (updated old).2.1, (updated old).2.2.1, List.filter_append, trail]
      simp [FriendDeed.about, Ne.symm mine]
  · intro deed member other about
    rcases List.mem_append.mp member with before | last
    · exact sound.past deed before other about
    · rw [List.mem_singleton.mp last] at about
      exact of_decide_eq_true about ▸ stands.1
  · refine sound.disclosed.append fun id user friend member => ?_
    cases List.mem_singleton.mp member

theorem Sound.insert (sound : Sound s) (apart : user ≠ target)
    (added : s.insert user target = some t) : Sound t := by
  unfold Social.insert at added
  split at added
  · cases added
  rename_i fits
  obtain ⟨free, users⟩ := not_or.mp fits
  obtain ⟨here, there⟩ := not_or.mp users
  cases added
  have follows : Follows s { s with
      rows := s.rows ++ [⟨s.nextId, user, target, Server.pairKey user target, .pending⟩]
      nextId := s.nextId + 1
      log := s.log ++ [.requested s.nextId user target] } := by
    refine ⟨Nat.le_succ _, fun row member older => ?_, List.subset_append_left _ _⟩
    rcases List.mem_append.mp member with before | last
    · exact ⟨row, before, rfl, rfl⟩
    · obtain rfl := List.mem_singleton.mp last
      exact absurd older (lt_irrefl _)
  have unused : s.nextId ∉ s.rows.map Friend.id := by
    intro member
    obtain ⟨row, inside, same⟩ := List.mem_map.mp member
    exact absurd (sound.fresh row inside) (by omega)
  have unpaired : Server.pairKey user target ∉ s.rows.map Friend.pairKey := by
    intro member
    obtain ⟨row, inside, same⟩ := List.mem_map.mp member
    exact free ⟨row, inside, .inl same⟩
  have silent : s.log.filter (·.about s.nextId) = [] :=
    List.filter_eq_nil_iff.mpr fun deed member about =>
      absurd (sound.past deed member s.nextId about) (lt_irrefl _)
  refine ⟨sound.people, sound.older, ?_, ?_, ?_, ?_, ?_, ?_, ?_, ?_, ?_,
    fun errand member => (sound.standing errand member).mono follows⟩
  · rw [List.map_append]
    exact List.concat_eq_append ▸ sound.ids.concat unused
  · intro row member
    rcases List.mem_append.mp member with before | last
    · exact (sound.fresh row before).trans (Nat.lt_succ_self _)
    · obtain rfl := List.mem_singleton.mp last
      exact Nat.lt_succ_self _
  · intro row member
    rcases List.mem_append.mp member with before | last
    · exact sound.apart row before
    · obtain rfl := List.mem_singleton.mp last
      exact apart
  · intro row member
    rcases List.mem_append.mp member with before | last
    · exact sound.keyed row before
    · obtain rfl := List.mem_singleton.mp last
      rfl
  · rw [List.map_append]
    exact List.concat_eq_append ▸ sound.single.concat unpaired
  · intro row member
    rcases List.mem_append.mp member with before | last
    · exact sound.owned row before
    · obtain rfl := List.mem_singleton.mp last
      exact ⟨not_not.mp here, not_not.mp there⟩
  · intro row member
    rcases List.mem_append.mp member with before | last
    · obtain ⟨n, trail, settled⟩ := sound.recorded row before
      have other : s.nextId ≠ row.id := (sound.fresh row before).ne'
      refine ⟨n, ?_, settled⟩
      rw [List.filter_append, trail]
      simp [FriendDeed.about, other]
    · obtain rfl := List.mem_singleton.mp last
      refine ⟨0, ?_, by simp⟩
      rw [List.filter_append, silent]
      simp [FriendDeed.about]
  · intro deed member id about
    rcases List.mem_append.mp member with before | last
    · exact (sound.past deed before id about).trans (Nat.lt_succ_self _)
    · rw [List.mem_singleton.mp last] at about
      exact of_decide_eq_true about ▸ Nat.lt_succ_self _
  · refine sound.disclosed.append fun id user friend member => ?_
    cases List.mem_singleton.mp member

theorem Sound.register (sound : Sound s) (username : String) :
    Sound { s with
      people := s.people ++ [⟨s.nextPerson, username⟩]
      nextPerson := s.nextPerson + 1 } := by
  have unused : s.nextPerson ∉ s.people.map Person.id := by
    intro member
    obtain ⟨person, inside, same⟩ := List.mem_map.mp member
    exact absurd (sound.older person inside) (by omega)
  refine ⟨?_, ?_, sound.ids, sound.fresh, sound.apart, sound.keyed, sound.single, ?_,
    sound.recorded, sound.past, sound.disclosed, fun errand member =>
      (sound.standing errand member).mono
        (.of_subset rfl (List.Subset.refl _) (List.Subset.refl _))⟩
  · rw [List.map_append]
    exact List.concat_eq_append ▸ sound.people.concat unused
  · intro person member
    rcases List.mem_append.mp member with before | last
    · exact (sound.older person before).trans (Nat.lt_succ_self _)
    · obtain rfl := List.mem_singleton.mp last
      exact Nat.lt_succ_self _
  · intro row member
    rw [List.map_append]
    exact ⟨List.mem_append_left _ (sound.owned row member).1,
      List.mem_append_left _ (sound.owned row member).2⟩

theorem befriended_of_accepted (sound : Sound s) (found : s.acceptedFriend user friend = some id) :
    Befriended s.log id user friend := by
  obtain ⟨row, there, rfl⟩ := Option.map_eq_some_iff.mp found
  have accepted := List.find?_some there
  simp only [Bool.and_eq_true, decide_eq_true_eq] at accepted
  obtain ⟨requested, confirmed⟩ := (sound.recorded row (List.mem_of_find?_eq_some there)).mem
  exact ⟨row.userId, row.friendId, requested, confirmed accepted.1, between_iff.mp accepted.2⟩

theorem Sound.settle (sound : Sound s) (stands : Standing s errand)
    (settled : s.settle errand = some t) : Sound t := by
  cases errand with
  | asking user target => cases settled
  | adding user target => cases settled
  | answering id user accept =>
      cases settled
      cases accept with
      | true => exact sound.accept stands
      | false => exact sound.leave _
  | removing id =>
      cases settled
      exact sound.leave _
  | viewing id user friend =>
      cases settled
      have follows : Follows s { s with log := s.log ++ [.disclosed id user friend] } :=
        .of_subset rfl (List.Subset.refl _) (List.subset_append_left _ _)
      refine ⟨sound.people, sound.older, sound.ids, sound.fresh, sound.apart, sound.keyed,
        sound.single, sound.owned, ?_, ?_, ?_,
        fun errand member => (sound.standing errand member).mono follows⟩
      · intro row member
        obtain ⟨n, trail, settled⟩ := sound.recorded row member
        exact ⟨n, by simpa [List.filter_append, FriendDeed.about] using trail, settled⟩
      · intro deed member other about
        rcases List.mem_append.mp member with before | last
        · exact sound.past deed before other about
        · rw [List.mem_singleton.mp last] at about
          cases about
      · refine sound.disclosed.append fun row first second member => ?_
        cases List.mem_singleton.mp member
        exact stands

theorem Sound.step (sound : Sound s) (stepped : machine.step s action = some t) : Sound t := by
  cases action with
  | register username =>
      simp only [machine] at stepped
      split at stepped
      · cases stepped
        exact sound
      · cases stepped
        exact sound.register username
  | deleteUser userId =>
      cases stepped
      refine sound.drop (fun row => row.involves userId) _ fun row member kept person inside mine => ?_
      have other : person.id ≠ userId := fun same => by simp [same ▸ mine] at kept
      simpa using other
  | request user username =>
      simp only [machine] at stepped
      split at stepped
      · split at stepped
        · cases stepped
          exact sound
        · rename_i target _ other
          cases stepped
          exact sound.append (Ne.symm other)
      · cases stepped
        exact sound
  | check place =>
      simp only [machine] at stepped
      split at stepped
      · rename_i user target found
        have apart : user ≠ target := sound.standing _ (List.mem_of_getElem? found)
        split at stepped
        · cases stepped
          exact sound.erase place
        · cases stepped
          refine sound.edit fun errand member => ?_
          rcases List.mem_or_eq_of_mem_set member with before | rfl
          · exact sound.standing errand before
          · exact apart
      · cases stepped
  | add place busy =>
      simp only [machine] at stepped
      split at stepped
      · rename_i user target found
        have apart : user ≠ target := sound.standing _ (List.mem_of_getElem? found)
        cases stepped
        split
        · exact sound.erase place
        · cases added : Social.insert user target { s with errands := s.errands.eraseIdx place } with
          | none => exact sound.erase place
          | some done => exact (sound.erase place).insert apart added
      · cases stepped
  | respond user id accept =>
      simp only [machine] at stepped
      split at stepped
      · rename_i row found
        have inside := List.mem_of_find?_eq_some found
        have same := List.find?_some found
        simp only [decide_eq_true_eq] at same
        split at stepped
        · rename_i mine
          cases stepped
          refine sound.append ⟨same ▸ sound.fresh row inside, fun other member alike => ?_⟩
          rw [List.inj_on_of_nodup_map sound.ids member inside (alike.trans same.symm)]
          exact mine.1
        · cases stepped
          exact sound
      · cases stepped
        exact sound
  | delete user id =>
      simp only [machine] at stepped
      split at stepped
      · split at stepped
        · cases stepped
          exact sound.append trivial
        · cases stepped
          exact sound
      · cases stepped
        exact sound
  | view user friend =>
      simp only [machine] at stepped
      split at stepped
      · rename_i id found
        cases stepped
        exact sound.append (befriended_of_accepted sound found)
      · cases stepped
        exact sound
  | settle place fails =>
      simp only [machine] at stepped
      split at stepped
      · rename_i errand found
        obtain ⟨settled, made, rfl⟩ := Option.map_eq_some_iff.mp stepped
        split
        · exact sound.erase place
        · have stands := (sound.standing errand (List.mem_of_getElem? found)).mono
            (t := { s with errands := s.errands.eraseIdx place })
            (.of_subset rfl (List.Subset.refl _) (List.Subset.refl _))
          exact (sound.erase place).settle stands made
      · cases stepped

theorem sound (reached : machine.Reachable s) : Sound s := by
  refine reached.invariant (P := Sound) ?_ Sound.step
  intro s started
  subst started
  constructor <;> simp [Disclosed]

/-- The others of the rows of a user that are chosen. -/
def others (s : Social) (user : Nat) (p : Friend → Bool) : List Nat :=
  ((s.rows.filter fun row => row.involves user).filter p).map fun row => row.other user

/-- Nobody of a row is missing, so that each list shows the others of its rows. -/
theorem uids_of_named {rows : List Friend} {name : Friend → Option Person}
    (named : ∀ row ∈ rows, (name row).isSome) (user : Nat) (p : Friend → Bool) :
    (((rows.filterMap fun row => (name row).map fun person =>
        (row, (⟨row.id, row.other user, person.username⟩ : FriendItem))).filter
        fun entry => p entry.1).map Prod.snd).map FriendItem.uid =
      (rows.filter p).map fun row => row.other user := by
  induction rows with
  | nil => rfl
  | cons row rest ih =>
      obtain ⟨person, found⟩ := Option.isSome_iff_exists.mp (named row List.mem_cons_self)
      have tail := ih fun other member => named other (List.mem_cons_of_mem _ member)
      by_cases chosen : p row = true
      · simpa [List.filterMap_cons, found, chosen] using tail
      · simpa [List.filterMap_cons, found, chosen] using tail

theorem Sound.named (sound : Sound s) (user : Nat) :
    ∀ row ∈ s.rows.filter fun row => row.involves user,
      (s.people.find? fun person => person.id = row.other user).isSome := by
  intro row member
  obtain ⟨inside, -⟩ := List.mem_filter.mp member
  have there : row.other user ∈ s.people.map Person.id := by
    unfold Friend.other
    split
    · exact (sound.owned row inside).2
    · exact (sound.owned row inside).1
  obtain ⟨person, known, same⟩ := List.mem_map.mp there
  exact List.find?_isSome.mpr ⟨person, known, by simp [same]⟩

theorem mem_others {p : Friend → Bool} : second ∈ s.others first p ↔
    ∃ row ∈ s.rows, p row = true ∧ row.between first second = true := by
  simp only [others, List.mem_map, List.mem_filter, ← involves_other_iff]
  constructor
  · rintro ⟨row, ⟨⟨member, mine⟩, chosen⟩, same⟩
    exact ⟨row, member, chosen, mine, same⟩
  · rintro ⟨row, member, chosen, mine, same⟩
    exact ⟨row, ⟨⟨member, mine⟩, chosen⟩, same⟩

theorem Sound.others_nodup (sound : Sound s) (user : Nat) :
    ((s.rows.filter fun row => row.involves user).map fun row => row.other user).Nodup := by
  refine List.Nodup.of_map (Server.pairKey user) ?_
  have keys : ((s.rows.filter fun row => row.involves user).map fun row => row.other user).map
      (Server.pairKey user) = (s.rows.filter fun row => row.involves user).map Friend.pairKey := by
    rw [List.map_map]
    refine List.map_congr_left fun row member => ?_
    obtain ⟨inside, mine⟩ := List.mem_filter.mp member
    rw [sound.keyed row inside]
    rcases between_iff.mp (involves_other_iff.mp ⟨mine, rfl⟩) with ⟨here, there⟩ | ⟨there, here⟩
    · rw [here, there, Function.comp_apply]
    · rw [here, there, Function.comp_apply, pairKey_comm]
  rw [keys]
  exact sound.single.sublist (List.filter_sublist.map _)

/-- What `list_friends` answers a user. -/
def lists (s : Social) (user : Nat) : FriendLists := listFriends s.rows s.people user

def uids (items : List FriendItem) : List Nat := items.map FriendItem.uid

theorem Sound.uids_lists (sound : Sound s) (user : Nat) :
    uids (s.lists user).accepted = s.others user (fun row => row.status = .accepted) ∧
    uids (s.lists user).incoming =
      s.others user (fun row => row.status ≠ .accepted && row.friendId = user) ∧
    uids (s.lists user).outgoing =
      s.others user (fun row => row.status ≠ .accepted && row.friendId ≠ user) :=
  ⟨uids_of_named (sound.named user) user (fun row => row.status = .accepted),
    uids_of_named (sound.named user) user
      (fun row => row.status ≠ .accepted && row.friendId = user),
    uids_of_named (sound.named user) user
      (fun row => row.status ≠ .accepted && row.friendId ≠ user)⟩

/-- The three lists are the rows of the user, each in one of them. -/
theorem others_perm (user : Nat) :
    (s.others user (fun row => row.status = .accepted) ++
        s.others user (fun row => row.status ≠ .accepted && row.friendId = user) ++
        s.others user (fun row => row.status ≠ .accepted && row.friendId ≠ user)).Perm
      ((s.rows.filter fun row => row.involves user).map fun row => row.other user) := by
  simp only [others, ← List.map_append]
  refine List.Perm.map _ ?_
  generalize s.rows.filter (fun row => row.involves user) = rows
  have open_rows := List.filter_append_perm (fun row : Friend => row.friendId = user)
    (rows.filter fun row => row.status ≠ .accepted)
  have all := List.filter_append_perm (fun row : Friend => row.status = .accepted) rows
  simp only [List.filter_filter] at open_rows
  rw [List.append_assoc]
  refine .trans (.append_left _ ?_) all
  simpa [Bool.and_comm] using open_rows

/-- Keys of pairs do not collide, so that only a row of the same two is in the way. -/
theorem Sound.insert_iff (sound : Sound s) (here : first ∈ s.people.map Person.id)
    (there : second ∈ s.people.map Person.id) :
    (s.insert first second).isSome ↔ s.rows.all fun row => !row.between first second := by
  have blocked : (∃ row ∈ s.rows, row.pairKey = Server.pairKey first second ∨
      (row.userId = first ∧ row.friendId = second)) ↔
      ∃ row ∈ s.rows, row.between first second = true := by
    constructor
    · rintro ⟨row, inside, same | same⟩
      · rw [sound.keyed row inside] at same
        rcases pairKey_inj same with pair | pair
        · exact ⟨row, inside, between_iff.mpr (.inl pair)⟩
        · exact ⟨row, inside, between_iff.mpr (.inr pair)⟩
      · exact ⟨row, inside, between_iff.mpr (.inl same)⟩
    · rintro ⟨row, inside, pair⟩
      refine ⟨row, inside, .inl ?_⟩
      rw [sound.keyed row inside]
      rcases between_iff.mp pair with ⟨one, other⟩ | ⟨one, other⟩
      · rw [one, other]
      · rw [one, other, pairKey_comm]
  unfold Social.insert
  simp only [blocked, here, there, not_true_eq_false, or_false]
  split
  · rename_i taken
    obtain ⟨row, inside, pair⟩ := taken
    simp only [Option.isSome_none, Bool.false_eq_true, false_iff, List.all_eq_true, not_forall]
    exact ⟨row, inside, by simp [pair]⟩
  · rename_i free
    simp only [Option.isSome_some, true_iff, List.all_eq_true]
    intro row inside
    by_contra taken
    exact free ⟨row, inside, by simpa using taken⟩

/-- Nobody is listed twice for a user, and no user for oneself. -/
theorem Sound.once (sound : Sound s) (user : Nat) :
    (user :: (uids (s.lists user).accepted ++ uids (s.lists user).incoming ++
      uids (s.lists user).outgoing)).Nodup := by
  obtain ⟨accepted, incoming, outgoing⟩ := sound.uids_lists user
  rw [accepted, incoming, outgoing]
  refine List.nodup_cons.mpr ⟨fun member => ?_,
    (others_perm user).nodup_iff.mpr (sound.others_nodup user)⟩
  obtain ⟨row, chosen, same⟩ := List.mem_map.mp ((others_perm user).mem_iff.mp member)
  obtain ⟨inside, mine⟩ := List.mem_filter.mp chosen
  have alone := between_iff.mp (involves_other_iff.mp ⟨mine, same⟩)
  exact sound.apart row inside (by omega)

/-- What holds of friends at any time. -/
structure Agreed (s : Social) : Prop where
  /-- Nobody is listed twice for a user, and no user for oneself. -/
  once : ∀ user, (user :: (uids (s.lists user).accepted ++ uids (s.lists user).incoming ++
    uids (s.lists user).outgoing)).Nodup
  mutual_friends : ∀ first second, second ∈ uids (s.lists first).accepted ↔
    first ∈ uids (s.lists second).accepted
  directed : ∀ first second, second ∈ uids (s.lists first).incoming ↔
    first ∈ uids (s.lists second).outgoing
  /-- Favourites are open to those who are listed as friends. -/
  open_to_friends : ∀ first second, (s.acceptedFriend first second).isSome ↔
    second ∈ uids (s.lists first).accepted
  /-- Of two users without a row a request is taken. -/
  free : ∀ first ∈ s.people, ∀ second ∈ s.people, first.id ≠ second.id →
    ((s.insert first.id second.id).isSome ↔ s.rows.all fun row => !row.between first.id second.id)
  recorded : ∀ row ∈ s.rows, Recorded s.log row
  disclosed : Disclosed s.log

/-- However requests, answers, deletions, looks at favourites and deletions of users interleave:
two users share at most one row, both see it alike, and it is accepted only when the addressee of
that request confirmed it; favourites are shown to no one else. -/
theorem friends_agree (reached : machine.Reachable s) : Agreed s := by
  have sound := sound reached
  refine ⟨sound.once, fun first second => ?_, fun first second => ?_, fun first second => ?_,
    fun first here second there apart => ?_, sound.recorded, sound.disclosed⟩
  · rw [(sound.uids_lists first).1, (sound.uids_lists second).1, mem_others, mem_others]
    simp only [between_iff, or_comm]
  · rw [(sound.uids_lists first).2.1, (sound.uids_lists second).2.2, mem_others, mem_others]
    simp only [between_iff, Bool.and_eq_true, decide_eq_true_eq]
    constructor
    · rintro ⟨row, inside, ⟨open_row, addressee⟩, pair⟩
      have apart := sound.apart row inside
      exact ⟨row, inside, ⟨open_row, by omega⟩, by omega⟩
    · rintro ⟨row, inside, ⟨open_row, addressee⟩, pair⟩
      exact ⟨row, inside, ⟨open_row, by omega⟩, by omega⟩
  · rw [(sound.uids_lists first).1, mem_others, acceptedFriend, Option.isSome_map,
      List.find?_isSome]
    simp only [Bool.and_eq_true]
  · exact sound.insert_iff (List.mem_map_of_mem here) (List.mem_map_of_mem there)

/-- Two users ask each other at once; one request is taken, confirmed and made use of. -/
def crossingScript : List FriendAction := [
  .register "ann", .register "bob", .request 1 "bob", .request 2 "ann", .check 0, .check 1,
  .add 0 false, .add 0 false, .respond 2 1 true, .settle 0 false, .view 1 2, .settle 0 false]

theorem friends_agree_crossing : ∃ s, machine.run {} crossingScript = some s ∧
    s.log = [.requested 1 1 2, .confirmed 1 2, .disclosed 1 1 2] ∧ Agreed s := by
  have ran : (machine.run {} crossingScript).any (fun s =>
      s.log = [.requested 1 1 2, .confirmed 1 2, .disclosed 1 1 2]) = true := by decide +kernel
  obtain ⟨s, found, log⟩ := (Option.any_eq_true ..).mp ran
  exact ⟨s, found, of_decide_eq_true log,
    friends_agree (Machine.reachable_of_run crossingScript rfl found)⟩

end Social
end MapGo.Server
