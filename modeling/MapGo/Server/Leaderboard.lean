import MapGo.Choice
import MapGo.Server.Friends
import MapGo.Server.Stats

/-! The leaderboard of a user and the accepted friends. The tracks of the last days are added up by
user, and for each user by local day; the users are ranked by distance. -/
namespace MapGo.Server

/-- A row of `tracks` with its `user_id`. -/
structure UserTrack where
  userId : Nat
  track : Track
  deriving DecidableEq, Repr

/-- `totals[user_id]` -/
structure Total where
  whole : Bucket := {}
  daily : Buckets := []
  deriving DecidableEq, Repr

def Total.add (zone : Zone) (total : Total) (track : Track) : Total where
  whole := total.whole.add track
  daily := total.daily.add (zone.localDate track.createdAt) track

structure LeaderboardRow where
  uid : Nat
  whole : Bucket
  daily : Buckets
  rank : Nat := 0
  deriving DecidableEq, Repr

/-- `(-item["distance"], -item["count"], item["uid"])` -/
def LeaderboardRow.key (row : LeaderboardRow) : ℚ ×ₗ ℤ ×ₗ ℕ :=
  toLex (-row.whole.distance, toLex (-row.whole.count, row.uid))

/-- `user_ids` -/
def boardUsers (s : Social) (user : Nat) : List Nat :=
  Assoc.firsts id (user :: (s.rows.filter fun row =>
    row.status = .accepted && row.involves user).map fun row => row.other user)

section
variable (zone : Zone) (now : Instant) (days : Nat) (tracks : List UserTrack)

/-- From the first midnight of the period to the one before tomorrow. -/
def inPeriod (instant : Instant) : Bool :=
  zone.midnight (zone.localDate now - (days - 1)) ≤ instant &&
    instant < zone.midnight (zone.localDate now + 1)

/-- The totals of the users after the rows of the query. -/
def boardTotals (userIds : List Nat) : List (Nat × Total) :=
  Assoc.group UserTrack.userId (fun total row => total.add zone row.track) {}
    (tracks.filter fun row => userIds.contains row.userId && inPeriod zone now days row.track.createdAt)
    (userIds.map fun userId => (userId, {}))

def boardRow (totals : List (Nat × Total)) (userId : Nat) : LeaderboardRow :=
  let total := (totals.lookup userId).getD {}
  { uid := userId
    whole := total.whole
    daily := total.daily.insertionSort fun entry other => decide (other.1 < entry.1) = false }

def leaderboard (s : Social) (user : Nat) : List LeaderboardRow :=
  let userIds := boardUsers s user
  let result := userIds.map (boardRow (boardTotals zone now days tracks userIds))
  ((result.insertionSort fun row other => decide (other.key < row.key) = false).zipIdx 1).map
    fun ranked => { ranked.1 with rank := ranked.2 }

/-- The tracks of a user in the period. -/
def ownTracks (userId : Nat) : List Track :=
  (tracks.filter fun row =>
    row.userId = userId && inPeriod zone now days row.track.createdAt).map UserTrack.track

instance (rows : List Track) (day : Int) : Decidable (Active zone rows day) :=
  inferInstanceAs (Decidable (∃ track ∈ rows, zone.localDate track.createdAt = day))

/-- What a row of the leaderboard says of its user. -/
structure AddedUp (row : LeaderboardRow) : Prop where
  whole : row.whole = (ownTracks zone now days tracks row.uid).foldl Bucket.add {}
  sorted : (row.daily.map Prod.fst).Pairwise (· < ·)
  daily : ∀ day, row.daily.lookup day =
    if Active zone (ownTracks zone now days tracks row.uid) day then
      some (((ownTracks zone now days tracks row.uid).filter fun track =>
        zone.localDate track.createdAt = day).foldl Bucket.add {})
    else none
  period : ∀ day ∈ row.daily.map Prod.fst,
    zone.localDate now - days < day ∧ day ≤ zone.localDate now
  /-- The days add up to the whole. -/
  distance : (row.daily.map fun entry => entry.2.distance).sum = row.whole.distance
  duration : (row.daily.map fun entry => entry.2.duration).sum = row.whole.duration
  count : (row.daily.map fun entry => entry.2.count).sum = row.whole.count

/-- The users of a leaderboard, their order and their rows. -/
structure Complete (s : Social) (user : Nat) (board : List LeaderboardRow) : Prop where
  users : (board.map LeaderboardRow.uid).Perm (user :: Social.uids (s.lists user).accepted)
  ranks : board.map LeaderboardRow.rank = List.range' 1 board.length
  ordered : (board.map LeaderboardRow.key).Pairwise (· < ·)
  counted : ∀ row ∈ board, AddedUp zone now days tracks row

variable {zone now days tracks} {s : Social} {user : Nat}

theorem inPeriod_iff {instant : Instant} : inPeriod zone now days instant = true ↔
    zone.localDate now - days < zone.localDate instant ∧
      zone.localDate instant ≤ zone.localDate now := by
  simp only [inPeriod, Bool.and_eq_true, decide_eq_true_eq, zone.begins, ← not_le]
  omega

/-- The loop over the tracks of one user. -/
theorem foldl_total (rows : List Track) (total : Total) :
    rows.foldl (Total.add zone) total =
      ⟨rows.foldl Bucket.add total.whole,
        Assoc.group (fun track => zone.localDate track.createdAt) Bucket.add {} rows total.daily⟩ := by
  induction rows generalizing total with
  | nil => rfl
  | cons row rest ih => rw [List.foldl_cons, ih]; rfl

/-- The rows of the query that are those of one of the users. -/
theorem ownTracks_eq {userIds : List Nat} {userId : Nat} (known : userId ∈ userIds) :
    ownTracks zone now days tracks userId = ((tracks.filter fun row =>
      userIds.contains row.userId && inPeriod zone now days row.track.createdAt).filter
        fun row => row.userId = userId).map UserTrack.track := by
  rw [ownTracks, List.filter_filter]
  congr 1
  refine List.filter_congr fun row _ => ?_
  by_cases own : row.userId = userId
  · simp [own, known]
  · simp [own]

theorem lookup_empty {userIds : List Nat} {userId : Nat} (known : userId ∈ userIds) :
    (userIds.map fun userId => (userId, ({} : Total))).lookup userId = some {} := by
  induction userIds with
  | nil => contradiction
  | cons first rest ih =>
      rw [List.map_cons, List.lookup_cons]
      by_cases same : userId = first
      · simp [same]
      · rw [beq_eq_false_iff_ne.mpr same]
        exact ih (List.mem_of_ne_of_mem same known)

theorem lookup_boardTotals {userIds : List Nat} {userId : Nat} (known : userId ∈ userIds) :
    ((boardTotals zone now days tracks userIds).lookup userId).getD {} =
      (ownTracks zone now days tracks userId).foldl (Total.add zone) {} := by
  rw [boardTotals, Assoc.lookup_group, lookup_empty known, ownTracks_eq known, List.foldl_map]
  split
  · rfl
  · rename_i absent
    have none : ((tracks.filter fun row =>
        userIds.contains row.userId && inPeriod zone now days row.track.createdAt).filter
          fun row => row.userId = userId) = [] :=
      List.filter_eq_nil_iff.mpr fun row member own =>
        absent ⟨row, member, of_decide_eq_true own⟩
    rw [none]
    rfl

/-- Distinct keys are found in any order of the pairs. -/
theorem lookup_perm {κ ν : Type} [DecidableEq κ] {d e : List (κ × ν)} (distinct : Assoc.Distinct d)
    (same : d.Perm e) (key : κ) : e.lookup key = d.lookup key := by
  have other : Assoc.Distinct e := (same.map Prod.fst).nodup_iff.mp distinct
  cases found : d.lookup key with
  | some value => exact other.lookup (same.mem_iff.mp (Assoc.mem_of_lookup found))
  | none =>
      rw [Assoc.lookup_eq_none] at found ⊢
      exact fun member => found ((same.map Prod.fst).mem_iff.mpr member)

theorem AddedUp.ranked {row : LeaderboardRow} (counted : AddedUp zone now days tracks row)
    (rank : Nat) : AddedUp zone now days tracks { row with rank := rank } :=
  ⟨counted.whole, counted.sorted, counted.daily, counted.period, counted.distance,
    counted.duration, counted.count⟩

theorem counted_boardRow {userIds : List Nat} {userId : Nat} (known : userId ∈ userIds) :
    AddedUp zone now days tracks
      (boardRow (boardTotals zone now days tracks userIds) userId) := by
  have total := @lookup_boardTotals zone now days tracks userIds userId known
  rw [foldl_total] at total
  generalize own : ownTracks zone now days tracks userId = rows at total
  have row : boardRow (boardTotals zone now days tracks userIds) userId =
      { uid := userId
        whole := rows.foldl Bucket.add {}
        daily := (Assoc.group (fun track => zone.localDate track.createdAt) Bucket.add {} rows
          []).insertionSort fun entry other => decide (other.1 < entry.1) = false } := by
    rw [boardRow, total]
  generalize grouped : Assoc.group (fun track : Track => zone.localDate track.createdAt) Bucket.add
    {} rows [] = buckets at row
  have distinct : Assoc.Distinct buckets := grouped ▸ Assoc.Distinct.group List.nodup_nil
  have order := List.perm_insertionSort
    (fun entry other : Int × Bucket => decide (other.1 < entry.1) = false) buckets
  have balance {M : Type} [AddCancelCommMonoid M] {weight : Bucket → M} {brings : Track → M}
      (empty : weight {} = 0)
      (adds : ∀ bucket track, weight (bucket.add track) = weight bucket + brings track) :
      ((buckets.insertionSort fun entry other => decide (other.1 < entry.1) = false).map
        fun entry => weight entry.2).sum = weight (rows.foldl Bucket.add {}) := by
    rw [(order.map _).sum_eq, ← grouped, Assoc.sum_group empty adds, Assoc.sum_foldl adds, empty]
    simp
  rw [row]
  constructor
  · rw [own]
  · rw [List.pairwise_map]
    exact @Choice.sorted_strictly (Int × Bucket) Int
      (fun entry other => decide (entry.1 < other.1)) buckets _ Prod.fst (by simp) distinct
  · intro day
    rw [own, lookup_perm distinct order.symm, ← grouped, Assoc.lookup_group]
    rfl
  · intro day member
    rw [(order.map Prod.fst).mem_iff, ← grouped, Assoc.mem_keys_group] at member
    rcases member with none | ⟨track, inside, rfl⟩
    · cases none
    · rw [← own] at inside
      obtain ⟨row, chosen, rfl⟩ := List.mem_map.mp inside
      obtain ⟨-, chosen⟩ := List.mem_filter.mp chosen
      simp only [Bool.and_eq_true] at chosen
      exact inPeriod_iff.mp chosen.2
  · exact balance rfl fun _ _ => rfl
  · exact balance rfl fun _ _ => rfl
  · exact balance rfl fun _ _ => rfl

theorem firsts_perm {items : List Nat} (distinct : items.Nodup) :
    (Assoc.firsts id items).Perm items := by
  have firsts : (Assoc.firsts id items).Nodup := by
    simpa using @Assoc.firsts_distinct Nat Nat _ id items
  refine (List.perm_ext_iff_of_nodup firsts distinct).mpr fun x => ?_
  rw [Assoc.mem_firsts]
  constructor
  · rintro ⟨before, after, rfl, -⟩
    simp
  · intro member
    obtain ⟨before, after, rfl⟩ := List.append_of_mem member
    refine ⟨before, after, rfl, fun y earlier same => ?_⟩
    exact (List.nodup_append.mp distinct).2.2 y earlier x List.mem_cons_self same

theorem accepted_once (sound : s.Sound) (user : Nat) :
    (user :: Social.uids (s.lists user).accepted).Nodup :=
  (sound.once user).sublist (List.Sublist.cons_cons _ (by simp [List.append_assoc]))

/-- The users of the leaderboard are the user and the accepted friends. -/
theorem boardUsers_perm (sound : s.Sound) (user : Nat) :
    (boardUsers s user).Perm (user :: Social.uids (s.lists user).accepted) := by
  have once := accepted_once sound user
  have accepted := (sound.uids_lists user).1
  rw [Social.others, List.filter_filter] at accepted
  rw [accepted] at once ⊢
  exact firsts_perm once

/-- The ranks change nothing else. -/
theorem map_ranked {γ : Type} {field : LeaderboardRow → γ}
    (same : ∀ row rank, field { row with rank := rank } = field row) (rows : List LeaderboardRow) :
    ((rows.zipIdx 1).map fun ranked => { ranked.1 with rank := ranked.2 }).map field =
      rows.map field := by
  have kept := congrArg (List.map field) (List.zipIdx_map_fst 1 rows)
  rw [List.map_map] at kept
  rw [List.map_map, ← kept]
  exact List.map_congr_left fun ranked _ => same ranked.1 ranked.2

end

/-- Walks of two friends and of a stranger, one of them before the period. -/
def walks : List UserTrack := [
  ⟨1, 3, some 600, 0⟩, ⟨2, 5, none, 0⟩, ⟨1, 9, none, -700000000000⟩, ⟨3, 8, none, 0⟩,
  ⟨1, 1, none, 86400000000⟩]

end MapGo.Server
