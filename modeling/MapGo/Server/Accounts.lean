import MapGo.Server.Passwords
import MapGo.Transition

/-! Accounts and their sessions. Logins, registrations, logouts, revocations and deletions of users
come between the awaits of one another; a session is the only thing that lets a request act for a
user. -/
namespace MapGo.Server

open Transition

structure User where
  id : Nat
  username : String
  passHash : String
  isAdmin : Bool
  deriving DecidableEq, Repr

/-- A row of `sessions`; the token is the digest of the one that was handed out. -/
structure Session where
  token : String
  userId : Nat
  expiresAt : ℚ
  revokedAt : Option ℚ := none
  deriving DecidableEq

inductive AccountType where
  | user | admin
  deriving DecidableEq, Repr

/-- What a login or a registration is asked with. -/
structure Credentials where
  username : String
  password : String
  accountType : AccountType := .user
  adminInitToken : Option String := none
  deriving DecidableEq, Repr

structure AuthSettings where
  sessionDays : ℚ
  /-- Empty if none is configured. -/
  adminInitToken : String
  derive : Derive
  /-- `hashlib.sha256` -/
  sha256 : String → String

/-- `authorization[7:]` of a header with a bearer token, else nothing. -/
def bearer (authorization : Option String) : String :=
  match authorization with
  | some header =>
      if Text.hasPrefix header "Bearer " then Text.withoutPrefix header "Bearer " else ""
  | none => ""

def isAscii (text : String) : Bool := text.toList.all fun c => c.toNat < 128

/-- `secrets.compare_digest` of two texts, which raises if one of them is not ASCII. -/
def compareDigest (text other : String) : Option Bool :=
  if isAscii text && isAscii other then some (text = other) else none

namespace AuthSettings
variable (settings : AuthSettings)

/-- `token_hash` -/
def tokenHash (raw : String) : String := settings.sha256 raw

/-- The configured token is given; the answer is an error otherwise. -/
def adminTokenGiven (adminInitToken : Option String) : Except String Unit :=
  if settings.adminInitToken = "" then .error "ADMIN_INIT_REQUIRED"
  else match adminInitToken with
    | none => .error "ADMIN_INIT_INVALID"
    | some given =>
        if given = "" then .error "ADMIN_INIT_INVALID"
        else match compareDigest given settings.adminInitToken with
          | some true => .ok ()
          | some false => .error "ADMIN_INIT_INVALID"
          | none => .error "INTERNAL_ERROR"

/-- The checks of `register` on the kind of account. -/
def mayRegister (asked : Credentials) : Except String Unit :=
  match asked.accountType with
  | .admin => settings.adminTokenGiven asked.adminInitToken
  | .user => .ok ()

/-- The checks of `login` on a user that was found. -/
def mayLogin (user : User) (asked : Credentials) : Except String Unit :=
  if !verifyPassword settings.derive asked.password user.passHash then
    .error "INVALID_CREDENTIALS"
  else match asked.accountType with
    | .admin =>
        if !user.isAdmin then .error "ADMIN_ACCOUNT_REQUIRED"
        else match settings.adminTokenGiven asked.adminInitToken with
          | .error "ADMIN_INIT_REQUIRED" => .error "ADMIN_INIT_INVALID"
          | answer => answer
    | .user => if user.isAdmin then .error "ADMIN_LOGIN_REQUIRED" else .ok ()

def expiresAt (now : ℚ) : ℚ := now + settings.sessionDays * 86400

end AuthSettings

/-- A request between two of its awaits. -/
inductive Errand where
  /-- `login`, with the user of its query. -/
  | verifying (user : User) (asked : Credentials)
  /-- `issue_session`, before an attempt. -/
  | issuing (user : User) (asked : Credentials) (attempt : Nat)
  /-- `register`, after its checks. -/
  | registering (asked : Credentials) (passHash : String)
  | leaving (token : String)
  /-- `revoke_session` and `delete_user`, before the row is read. -/
  | seeking (userId : Nat) (tokenId : String)
  | targeting (userId : Nat)
  | revoking (token : String) (revokedAt : ℚ)
  | removing (userId : Nat)
  deriving DecidableEq

/-- All that is left is to commit a change. -/
def Errand.commits : Errand → Bool
  | .leaving _ | .revoking _ _ | .removing _ => true
  | _ => false

/-- A token that was handed out, to whom, and what for. -/
structure Handed where
  raw : String
  userId : Nat
  asked : Credentials
  deriving DecidableEq, Repr

structure Accounts where
  users : List User := []
  /-- Ids are drawn from a sequence, so that none is used again. -/
  nextId : Nat := 1
  sessions : List Session := []
  errands : List Errand := []
  handed : List Handed := []
  /-- The sessions that ended by a logout, a revocation or with their user. -/
  ended : List String := []
  deriving DecidableEq

inductive AuthAction where
  | login (asked : Credentials)
  | verify (place : Nat)
  | issue (place : Nat) (raw : String) (now : ℚ) (busy : Bool)
  | register (asked : Credentials) (salt : List UInt8)
  | create (place : Nat) (raw : String) (now : ℚ) (busy : Bool)
  | logout (authorization : Option String) (now : ℚ)
  | find (place : Nat) (now : ℚ)
  | revoke (authorization : Option String) (tokenId : String) (now : ℚ)
  | deleteUser (authorization : Option String) (userId : Nat) (now : ℚ)
  /-- The commit of a logout, a revocation or a deletion. -/
  | settle (place : Nat) (fails : Bool)
  deriving DecidableEq

def Session.live (session : Session) : Bool := session.revokedAt = none

namespace Accounts
variable (settings : AuthSettings)

/-- `current_user` -/
def currentUser (s : Accounts) (authorization : Option String) (now : ℚ) : Option User :=
  let raw := bearer authorization
  if raw = "" then none
  else do
    let session ← s.sessions.find? fun session =>
      session.token = settings.tokenHash raw && session.live && now < session.expiresAt
    s.users.find? fun user => user.id = session.userId

/-- The rows of some sessions are deleted. -/
def dropSessions (p : Session → Bool) (s : Accounts) : Accounts :=
  { s with
    sessions := s.sessions.filter fun session => !p session
    ended := s.ended ++
      (s.sessions.filter fun session => p session && session.live).map Session.token }

/-- The commit of a change; a row that is gone is not changed. -/
def change (s : Accounts) : Errand → Accounts
  | .leaving token => s.dropSessions fun session => session.token = token
  | .revoking token revokedAt =>
      { s with
        sessions := s.sessions.map fun session =>
          if session.token = token then { session with revokedAt := some revokedAt } else session
        ended := s.ended ++ (s.sessions.filter fun session =>
          session.token = token && session.live).map Session.token }
  | .removing userId =>
      -- the sessions go with the user by the rule of the foreign key
      { s.dropSessions fun session => session.userId = userId with
        users := s.users.filter fun user => user.id ≠ userId }
  | _ => s

/-- The user of a registration. -/
def account (asked : Credentials) (passHash : String) (s : Accounts) : User :=
  ⟨s.nextId, asked.username, passHash, asked.accountType = .admin⟩

/-- A new session, if the database takes it: the token is new and the user is still there. -/
def addSession (raw : String) (now : ℚ) (userId : Nat) (asked : Credentials) (s : Accounts) :
    Option Accounts :=
  if settings.tokenHash raw ∈ s.sessions.map Session.token ∨ userId ∉ s.users.map User.id then none
  else some
    { s with
      sessions := s.sessions ++ [⟨settings.tokenHash raw, userId, settings.expiresAt now, none⟩]
      handed := s.handed ++ [⟨raw, userId, asked⟩] }

def machine : Machine Accounts AuthAction where
  initial s := s = {}
  step s
    | .login asked => match s.users.find? fun user => user.username = asked.username with
        | some user => some { s with errands := s.errands ++ [.verifying user asked] }
        | none => some s
    | .verify place => match s.errands[place]? with
        | some (.verifying user asked) => match settings.mayLogin user asked with
            | .ok _ => some { s with errands := s.errands.set place (.issuing user asked 0) }
            | .error _ => some { s with errands := s.errands.eraseIdx place }
        | _ => none
    | .issue place raw now busy => match s.errands[place]? with
        | some (.issuing user asked attempt) =>
            let rest := { s with errands := s.errands.eraseIdx place }
            match (if busy then none else addSession settings raw now user.id asked rest) with
            | some issued => some issued
            | none =>
                if attempt < 2 then
                  some { s with errands := s.errands.set place (.issuing user asked (attempt + 1)) }
                else some rest
        | _ => none
    | .register asked salt =>
        let passHash := hashPassword settings.derive asked.password salt
        if asked.username ∈ s.users.map User.username then some s
        else match settings.mayRegister asked with
          | .ok _ => some { s with errands := s.errands ++ [.registering asked passHash] }
          | .error _ => some s
    | .create place raw now busy => match s.errands[place]? with
        | some (.registering asked passHash) =>
            let rest := { s with errands := s.errands.eraseIdx place }
            if busy ∨ asked.username ∈ s.users.map User.username then some rest
            else
              let added := { rest with
                users := s.users ++ [s.account asked passHash]
                nextId := s.nextId + 1 }
              some ((addSession settings raw now s.nextId asked added).getD rest)
        | _ => none
    | .logout authorization now => match currentUser settings s authorization now with
        | some _ => some { s with errands := s.errands ++
            [.leaving (settings.tokenHash (bearer authorization))] }
        | none => some s
    | .revoke authorization tokenId now => match currentUser settings s authorization now with
        | some user =>
            if tokenId.length = 64 then
              some { s with errands := s.errands ++ [.seeking user.id tokenId] }
            else some s
        | none => some s
    | .deleteUser authorization userId now => match currentUser settings s authorization now with
        | some user =>
            if user.isAdmin ∧ userId ≠ user.id then
              some { s with errands := s.errands ++ [.targeting userId] }
            else some s
        | none => some s
    | .find place now => match s.errands[place]? with
        | some (.seeking userId tokenId) =>
            if ∃ session ∈ s.sessions, session.token = tokenId ∧ session.userId = userId then
              some { s with errands := s.errands.set place (.revoking tokenId now) }
            else some { s with errands := s.errands.eraseIdx place }
        | some (.targeting userId) =>
            if userId ∈ s.users.map User.id then
              some { s with errands := s.errands.set place (.removing userId) }
            else some { s with errands := s.errands.eraseIdx place }
        | _ => none
    | .settle place fails => match s.errands[place]? with
        | some errand =>
            let rest := { s with errands := s.errands.eraseIdx place }
            if errand.commits then some (if fails then rest else rest.change errand) else none
        | none => none

/-- The credentials are those of the account: its name and password, and for an administrator the
configured token. -/
structure Proven (user : User) (asked : Credentials) : Prop where
  named : user.username = asked.username
  password : verifyPassword settings.derive asked.password user.passHash = true
  kind : user.isAdmin = true ↔ asked.accountType = .admin
  admin : user.isAdmin = true →
    settings.adminInitToken ≠ "" ∧ asked.adminInitToken = some settings.adminInitToken

variable {settings} {s t : Accounts} {user : User} {asked : Credentials} {errand : Errand}

theorem adminTokenGiven_ok {given : Option String} (ok : settings.adminTokenGiven given = .ok u) :
    settings.adminInitToken ≠ "" ∧ given = some settings.adminInitToken := by
  unfold AuthSettings.adminTokenGiven at ok
  split at ok
  · cases ok
  rename_i configured
  split at ok
  · cases ok
  split at ok
  · cases ok
  split at ok
  · rename_i same
    unfold compareDigest at same
    split at same
    · exact ⟨configured, congrArg some (of_decide_eq_true (Option.some.inj same))⟩
    · cases same
  · cases ok
  · cases ok

theorem mayLogin_ok (named : user.username = asked.username)
    (ok : settings.mayLogin user asked = .ok u) : Proven settings user asked := by
  unfold AuthSettings.mayLogin at ok
  split at ok
  · cases ok
  rename_i password
  have password : verifyPassword settings.derive asked.password user.passHash = true := by
    simpa using password
  split at ok
  · rename_i kind
    split at ok
    · cases ok
    rename_i admin
    have admin : user.isAdmin = true := by simpa using admin
    split at ok
    · cases ok
    · exact ⟨named, password, iff_of_true admin kind, fun _ => adminTokenGiven_ok ok⟩
  · rename_i kind
    split at ok
    · cases ok
    rename_i plain
    exact ⟨named, password, iff_of_false plain (by simp [kind]), fun admin => absurd admin plain⟩

variable (settings) in
/-- The account under an id, if it is still there, is that of the credentials. -/
def Known (s : Accounts) (userId : Nat) (asked : Credentials) : Prop :=
  userId < s.nextId ∧ ∀ user ∈ s.users, user.id = userId → Proven settings user asked

variable (settings) in
def Standing (s : Accounts) : Errand → Prop
  | .verifying user asked => user.username = asked.username ∧ user.id < s.nextId ∧
      ∀ other ∈ s.users, other.id = user.id → other = user
  | .issuing user asked _ => Known settings s user.id asked
  | .registering asked passHash =>
      verifyPassword settings.derive asked.password passHash = true ∧
        settings.mayRegister asked = .ok ()
  | _ => True

/-- Users come with new ids and go; what is known of them does not change. -/
def Follows (s t : Accounts) : Prop :=
  s.nextId ≤ t.nextId ∧ ∀ user ∈ t.users, user ∈ s.users ∨ s.nextId ≤ user.id

theorem Follows.of_subset (next : t.nextId = s.nextId) (inside : t.users ⊆ s.users) :
    Follows s t :=
  ⟨next.ge, fun _ member => .inl (inside member)⟩

theorem Known.mono {userId : Nat} (known : Known settings s userId asked) (follows : Follows s t) :
    Known settings t userId asked := by
  refine ⟨known.1.trans_le follows.1, fun user member same => ?_⟩
  rcases follows.2 user member with before | newer
  · exact known.2 user before same
  · exact absurd known.1 (by omega)

theorem Standing.mono (stands : Standing settings s errand) (follows : Follows s t) :
    Standing settings t errand := by
  cases errand with
  | verifying user asked =>
      obtain ⟨named, older, same⟩ := stands
      refine ⟨named, older.trans_le follows.1, fun other member here => ?_⟩
      rcases follows.2 other member with before | newer
      · exact same other before here
      · omega
  | issuing user asked attempt => exact Known.mono stands follows
  | registering asked passHash => exact stands
  | leaving | seeking | targeting | revoking | removing => trivial

variable (settings) in
/-- What every run keeps; each token that was handed out has ended once or is still live. -/
structure Sound (s : Accounts) : Prop where
  ids : (s.users.map User.id).Nodup
  fresh : ∀ user ∈ s.users, user.id < s.nextId
  names : (s.users.map User.username).Nodup
  tokens : (s.sessions.map Session.token).Nodup
  owned : ∀ session ∈ s.sessions, session.userId ∈ s.users.map User.id
  backed : ∀ session ∈ s.sessions, ∃ entry ∈ s.handed,
    settings.tokenHash entry.raw = session.token ∧ entry.userId = session.userId
  known : ∀ entry ∈ s.handed, Known settings s entry.userId entry.asked
  standing : ∀ errand ∈ s.errands, Standing settings s errand
  balance : ∀ token, (s.handed.map fun entry => settings.tokenHash entry.raw).count token =
    s.ended.count token + s.sessions.countP fun session => session.token = token && session.live

theorem Sound.edit (sound : Sound settings s) {errands : List Errand}
    (standing : ∀ errand ∈ errands, Standing settings s errand) :
    Sound settings { s with errands := errands } :=
  { sound with
    known := fun entry member => (sound.known entry member).mono
      (.of_subset rfl (List.Subset.refl _))
    standing := fun errand member => (standing errand member).mono
      (.of_subset rfl (List.Subset.refl _)) }

theorem Sound.append (sound : Sound settings s) {errand : Errand}
    (stands : Standing settings s errand) :
    Sound settings { s with errands := s.errands ++ [errand] } := by
  refine sound.edit fun other member => ?_
  rcases List.mem_append.mp member with before | last
  · exact sound.standing other before
  · exact List.mem_singleton.mp last ▸ stands

theorem Sound.set (sound : Sound settings s) (place : Nat) {errand : Errand}
    (stands : Standing settings s errand) :
    Sound settings { s with errands := s.errands.set place errand } := by
  refine sound.edit fun other member => ?_
  rcases List.mem_or_eq_of_mem_set member with before | rfl
  · exact sound.standing other before
  · exact stands

theorem Sound.erase (sound : Sound settings s) (place : Nat) :
    Sound settings { s with errands := s.errands.eraseIdx place } :=
  sound.edit fun errand member => sound.standing errand (List.mem_of_mem_eraseIdx member)

theorem count_ended (sessions : List Session) (p : Session → Bool) (token : String) :
    (((sessions.filter fun session => p session && session.live).map Session.token).count token +
        sessions.countP fun session => !p session && (session.token = token && session.live)) =
      sessions.countP fun session => session.token = token && session.live := by
  induction sessions with
  | nil => rfl
  | cons session rest ih =>
      by_cases chosen : p session = true
      · by_cases live : session.live = true
        · by_cases same : session.token = token
          · simp [chosen, live, same, ← ih]
            omega
          · simp [chosen, live, same, ← ih]
        · simp [chosen, live, ← ih]
      · by_cases counted : (decide (session.token = token) && session.live) = true
        · simp [chosen, counted, ← ih]
          omega
        · simp [chosen, counted, ← ih]

/-- Sessions are deleted, and maybe the user of some whose sessions are all among them. -/
theorem Sound.drop (sound : Sound settings s) (p : Session → Bool) (q : User → Bool)
    (owned : ∀ session ∈ s.sessions, p session = false → ∀ user ∈ s.users,
      user.id = session.userId → q user = true) :
    Sound settings { s.dropSessions p with users := s.users.filter q } := by
  have follows : Follows s { s.dropSessions p with users := s.users.filter q } :=
    .of_subset rfl (List.filter_subset_self _)
  constructor
  · exact sound.ids.sublist (List.filter_sublist.map _)
  · exact fun user member => sound.fresh user (List.mem_of_mem_filter member)
  · exact sound.names.sublist (List.filter_sublist.map _)
  · exact sound.tokens.sublist (List.filter_sublist.map _)
  · intro session member
    obtain ⟨before, kept⟩ := List.mem_filter.mp member
    obtain ⟨user, inside, same⟩ := List.mem_map.mp (sound.owned session before)
    have stays := owned session before (by simpa using kept) user inside same
    exact List.mem_map.mpr ⟨user, List.mem_filter.mpr ⟨inside, stays⟩, same⟩
  · exact fun session member => sound.backed session (List.mem_of_mem_filter member)
  · exact fun entry member => (sound.known entry member).mono follows
  · exact fun errand member => (sound.standing errand member).mono follows
  · intro token
    have counted := count_ended s.sessions p token
    have balance := sound.balance token
    simp only [dropSessions, List.count_append, List.countP_filter]
    rw [balance, ← counted, Nat.add_assoc]
    congr 2
    exact List.countP_congr fun session _ => by simp [and_comm]

theorem Sound.leave (sound : Sound settings s) (p : Session → Bool) :
    Sound settings (s.dropSessions p) := by
  have kept := sound.drop p (fun _ => true) fun _ _ _ _ _ _ => rfl
  have same : { s.dropSessions p with users := s.users.filter fun _ => true } =
      s.dropSessions p := by
    simp [dropSessions]
  exact same ▸ kept

theorem Sound.revoke (sound : Sound settings s) (token : String) (revokedAt : ℚ) :
    Sound settings (s.change (.revoking token revokedAt)) := by
  have updated (session : Session) :
      (if session.token = token then { session with revokedAt := some revokedAt }
        else session).token = session.token ∧
      (if session.token = token then { session with revokedAt := some revokedAt }
        else session).userId = session.userId := by
    split <;> exact ⟨rfl, rfl⟩
  have follows : Follows s (s.change (.revoking token revokedAt)) :=
    .of_subset rfl (List.Subset.refl _)
  refine ⟨sound.ids, sound.fresh, sound.names, ?_, ?_, ?_,
    fun entry member => (sound.known entry member).mono follows,
    fun errand member => (sound.standing errand member).mono follows, ?_⟩
  · simpa only [change, List.map_map, Function.comp_def, updated] using sound.tokens
  · intro session member
    obtain ⟨old, before, rfl⟩ := List.mem_map.mp member
    rw [(updated old).2]
    exact sound.owned old before
  · intro session member
    obtain ⟨old, before, rfl⟩ := List.mem_map.mp member
    rw [(updated old).1, (updated old).2]
    exact sound.backed old before
  · intro other
    have counted := count_ended s.sessions
      (fun session => session.token = token) other
    have balance := sound.balance other
    simp only [change, List.count_append, List.countP_map]
    rw [balance, ← counted, Nat.add_assoc]
    congr 2
    refine List.countP_congr fun session _ => ?_
    by_cases same : session.token = token
    · simp [same, Session.live]
    · simp [same]

theorem Sound.addSession {raw : String} {now : ℚ} {userId : Nat} (sound : Sound settings s)
    (known : Known settings s userId asked)
    (added : addSession settings raw now userId asked s = some t) : Sound settings t := by
  unfold Accounts.addSession at added
  split at added
  · cases added
  rename_i fits
  obtain ⟨unused, there⟩ := not_or.mp fits
  cases added
  have follows : Follows s { s with
      sessions := s.sessions ++ [⟨settings.tokenHash raw, userId, settings.expiresAt now, none⟩]
      handed := s.handed ++ [⟨raw, userId, asked⟩] } :=
    .of_subset rfl (List.Subset.refl _)
  refine ⟨sound.ids, sound.fresh, sound.names, ?_, ?_, ?_, ?_,
    fun errand member => (sound.standing errand member).mono follows, ?_⟩
  · rw [List.map_append]
    exact List.concat_eq_append ▸ sound.tokens.concat unused
  · intro session member
    rcases List.mem_append.mp member with before | last
    · exact sound.owned session before
    · obtain rfl := List.mem_singleton.mp last
      exact not_not.mp there
  · intro session member
    rcases List.mem_append.mp member with before | last
    · obtain ⟨entry, earlier, backs⟩ := sound.backed session before
      exact ⟨entry, List.mem_append_left _ earlier, backs⟩
    · obtain rfl := List.mem_singleton.mp last
      exact ⟨_, List.mem_append_right _ (List.mem_singleton_self _), rfl, rfl⟩
  · intro entry member
    rcases List.mem_append.mp member with before | last
    · exact (sound.known entry before).mono follows
    · obtain rfl := List.mem_singleton.mp last
      exact known.mono follows
  · intro token
    have balance := sound.balance token
    by_cases same : settings.tokenHash raw = token
    · simp [List.countP_append, balance, same, Session.live]
      omega
    · simp [List.countP_append, balance, same]

theorem Sound.addUser (sound : Sound settings s) (user : User) (newest : user.id = s.nextId)
    (unnamed : user.username ∉ s.users.map User.username) :
    Sound settings { s with users := s.users ++ [user], nextId := s.nextId + 1 } := by
  have follows : Follows s { s with users := s.users ++ [user], nextId := s.nextId + 1 } := by
    refine ⟨Nat.le_succ _, fun other member => ?_⟩
    rcases List.mem_append.mp member with before | last
    · exact .inl before
    · exact .inr (List.mem_singleton.mp last ▸ newest.ge)
  have unused : user.id ∉ s.users.map User.id := by
    intro member
    obtain ⟨other, inside, same⟩ := List.mem_map.mp member
    exact absurd (sound.fresh other inside) (by omega)
  refine ⟨?_, ?_, ?_, sound.tokens, ?_, sound.backed,
    fun entry member => (sound.known entry member).mono follows,
    fun errand member => (sound.standing errand member).mono follows, sound.balance⟩
  · rw [List.map_append]
    exact List.concat_eq_append ▸ sound.ids.concat unused
  · intro other member
    rcases List.mem_append.mp member with before | last
    · exact (sound.fresh other before).trans (Nat.lt_succ_self _)
    · obtain rfl := List.mem_singleton.mp last
      exact newest ▸ Nat.lt_succ_self _
  · rw [List.map_append]
    exact List.concat_eq_append ▸ sound.names.concat unnamed
  · intro session member
    rw [List.map_append]
    exact List.mem_append_left _ (sound.owned session member)

/-- The commit of a logout, a revocation or a deletion. -/
theorem Sound.change (sound : Sound settings s) (errand : Errand) :
    Sound settings (s.change errand) := by
  cases errand with
  | leaving token => exact sound.leave _
  | revoking token revokedAt => exact sound.revoke token revokedAt
  | removing userId =>
      refine sound.drop (fun session => session.userId = userId) (fun user => user.id ≠ userId) ?_
      intro session member kept user inside same
      simpa [same] using kept
  | verifying user asked => exact sound
  | issuing user asked attempt => exact sound
  | registering asked passHash => exact sound
  | seeking userId tokenId => exact sound
  | targeting userId => exact sound

theorem issuing_of_issue {place : Nat} {raw : String} {now : ℚ} {busy : Bool}
    (stepped : (machine settings).step s (.issue place raw now busy) = some t) :
    ∃ user asked attempt, s.errands[place]? = some (.issuing user asked attempt) := by
  simp only [machine] at stepped
  split at stepped
  · rename_i user asked attempt found
    exact ⟨user, asked, attempt, found⟩
  · cases stepped

theorem registering_of_create {place : Nat} {raw : String} {now : ℚ} {busy : Bool}
    (stepped : (machine settings).step s (.create place raw now busy) = some t) :
    ∃ asked passHash, s.errands[place]? = some (.registering asked passHash) := by
  simp only [machine] at stepped
  split at stepped
  · rename_i asked passHash found
    exact ⟨asked, passHash, found⟩
  · cases stepped

theorem Sound.attempt (sound : Sound settings s) {place attempt : Nat} {raw : String} {now : ℚ}
    {busy : Bool} (found : s.errands[place]? = some (.issuing user asked attempt))
    (stepped : (machine settings).step s (.issue place raw now busy) = some t) :
    Sound settings t := by
  have known : Known settings s user.id asked :=
    sound.standing _ (List.mem_of_getElem? found)
  simp only [machine, found] at stepped
  split at stepped
  · rename_i issued added
    cases stepped
    split at added
    · cases added
    · exact (sound.erase place).addSession (known.mono (.of_subset rfl (List.Subset.refl _))) added
  · split at stepped
    · cases stepped
      exact sound.set place known
    · cases stepped
      exact sound.erase place

/-- A registration that commits brings its user and the first session. -/
theorem Sound.enlist (sound : Sound settings s) {place : Nat} {passHash raw : String} {now : ℚ}
    {busy : Bool} (found : s.errands[place]? = some (.registering asked passHash))
    (stepped : (machine settings).step s (.create place raw now busy) = some t) :
    Sound settings t := by
  obtain ⟨password, permitted⟩ : verifyPassword settings.derive asked.password passHash = true ∧
      settings.mayRegister asked = .ok () := sound.standing _ (List.mem_of_getElem? found)
  have rest := sound.erase place
  simp only [machine, found] at stepped
  split at stepped
  · cases stepped
    exact rest
  rename_i free
  cases stepped
  have unnamed := (not_or.mp free).2
  have added := rest.addUser (s.account asked passHash) rfl unnamed
  have proven : Proven settings (s.account asked passHash) asked := by
    refine ⟨rfl, password, by simp [account], fun admin => ?_⟩
    have kind : asked.accountType = .admin := of_decide_eq_true admin
    simp only [AuthSettings.mayRegister, kind] at permitted
    exact adminTokenGiven_ok permitted
  have known : Known settings { s with
      errands := s.errands.eraseIdx place
      users := s.users ++ [s.account asked passHash]
      nextId := s.nextId + 1 } s.nextId asked := by
    refine ⟨Nat.lt_succ_self _, fun other member same => ?_⟩
    rcases List.mem_append.mp member with before | last
    · exact absurd (sound.fresh other before) (by omega)
    · exact List.mem_singleton.mp last ▸ proven
  cases issued : Accounts.addSession settings raw now s.nextId asked { s with
      errands := s.errands.eraseIdx place
      users := s.users ++ [s.account asked passHash]
      nextId := s.nextId + 1 } with
  | none => exact rest
  | some done => exact added.addSession known issued

theorem Sound.step (sound : Sound settings s)
    (stepped : (machine settings).step s action = some t) : Sound settings t := by
  cases action with
  | login asked =>
      simp only [machine] at stepped
      split at stepped
      · rename_i user found
        cases stepped
        have named := List.find?_some found
        have inside := List.mem_of_find?_eq_some found
        refine sound.append ⟨of_decide_eq_true named, sound.fresh user inside, ?_⟩
        exact fun other member same => List.inj_on_of_nodup_map sound.ids member inside same
      · cases stepped
        exact sound
  | verify place =>
      simp only [machine] at stepped
      split at stepped
      · rename_i user asked found
        obtain ⟨named, older, same⟩ : user.username = asked.username ∧ user.id < s.nextId ∧
            ∀ other ∈ s.users, other.id = user.id → other = user :=
          sound.standing _ (List.mem_of_getElem? found)
        split at stepped
        · rename_i passed
          cases stepped
          exact sound.set place ⟨older, fun other inside here => same other inside here ▸
            mayLogin_ok named passed⟩
        · cases stepped
          exact sound.erase place
      · cases stepped
  | issue place raw now busy =>
      obtain ⟨user, asked, attempt, found⟩ := issuing_of_issue stepped
      exact sound.attempt found stepped
  | register asked salt =>
      simp only [machine] at stepped
      split at stepped
      · cases stepped
        exact sound
      · split at stepped
        · rename_i permitted
          cases stepped
          refine sound.append ⟨?_, permitted⟩
          rw [verifyPassword_hashPassword]
          exact decide_eq_true rfl
        · cases stepped
          exact sound
  | create place raw now busy =>
      obtain ⟨asked, passHash, found⟩ := registering_of_create stepped
      exact sound.enlist found stepped
  | logout authorization now =>
      simp only [machine] at stepped
      split at stepped
      · cases stepped
        exact sound.append trivial
      · cases stepped
        exact sound
  | revoke authorization tokenId now =>
      simp only [machine] at stepped
      split at stepped
      · split at stepped
        · cases stepped
          exact sound.append trivial
        · cases stepped
          exact sound
      · cases stepped
        exact sound
  | deleteUser authorization userId now =>
      simp only [machine] at stepped
      split at stepped
      · split at stepped
        · cases stepped
          exact sound.append trivial
        · cases stepped
          exact sound
      · cases stepped
        exact sound
  | find place now =>
      simp only [machine] at stepped
      split at stepped
      · split at stepped
        · cases stepped
          exact sound.set place trivial
        · cases stepped
          exact sound.erase place
      · split at stepped
        · cases stepped
          exact sound.set place trivial
        · cases stepped
          exact sound.erase place
      · cases stepped
  | settle place fails =>
      simp only [machine] at stepped
      split at stepped
      · split at stepped
        · cases stepped
          split
          · exact sound.erase place
          · exact (sound.erase place).change _
        · cases stepped
      · cases stepped

theorem sound (reached : (machine settings).Reachable s) : Sound settings s := by
  refine reached.invariant (P := Sound settings) ?_ Sound.step
  intro s started
  subst started
  constructor <;> simp

variable (settings) in
/-- How a request comes to act for a user. -/
structure Authenticated (s : Accounts) (authorization : Option String) (now : ℚ) (user : User) :
    Prop where
  present : user ∈ s.users
  /-- The token was handed out for the credentials of the account, and its session is live. -/
  granted : ∃ session ∈ s.sessions, ∃ entry ∈ s.handed,
    session.token = settings.tokenHash (bearer authorization) ∧
    settings.tokenHash entry.raw = settings.tokenHash (bearer authorization) ∧
    session.revokedAt = none ∧ now < session.expiresAt ∧ entry.userId = user.id ∧
    Proven settings user entry.asked
  /-- No logout, revocation or deletion has ended as many sessions as the token was handed out for. -/
  unended : s.ended.count (settings.tokenHash (bearer authorization)) <
    (s.handed.map fun entry => settings.tokenHash entry.raw).count
      (settings.tokenHash (bearer authorization))

/-- However registrations, logins, logouts, revocations and deletions interleave: a request acts for
a user only while the user exists, with a token that was handed out for the name and the password
of that account, and for an administrator for the configured token, until its session has ended. -/
theorem current_user_proven (reached : (machine settings).Reachable s)
    {authorization : Option String} {now : ℚ}
    (passes : currentUser settings s authorization now = some user) :
    Authenticated settings s authorization now user := by
  have sound := sound reached
  simp only [currentUser] at passes
  split at passes
  · cases passes
  obtain ⟨session, found, owner⟩ := Option.bind_eq_some_iff.mp passes
  have inside := List.mem_of_find?_eq_some found
  have matches_token := List.find?_some found
  simp only [Bool.and_eq_true, decide_eq_true_eq] at matches_token
  obtain ⟨⟨token, live⟩, unexpired⟩ := matches_token
  have present := List.mem_of_find?_eq_some owner
  have own := List.find?_some owner
  simp only [decide_eq_true_eq] at own
  obtain ⟨entry, handed, same, entry_user⟩ := sound.backed session inside
  refine ⟨present, ⟨session, inside, entry, handed, token, same.trans token,
    of_decide_eq_true live, unexpired, entry_user.trans own.symm, ?_⟩, ?_⟩
  · exact (sound.known entry handed).2 user present (own.trans entry_user.symm)
  · have balance := sound.balance (settings.tokenHash (bearer authorization))
    have counted : 0 < s.sessions.countP fun session =>
        session.token = settings.tokenHash (bearer authorization) && session.live :=
      List.countP_pos_iff.mpr ⟨session, inside, by simp [token, live]⟩
    omega

/-- A setting with readable digests. -/
def plainAuth : AuthSettings where
  sessionDays := 30
  adminInitToken := "opening"
  derive password _ := password.toList.map fun c => UInt8.ofNat c.toNat
  sha256 raw := "digest of " ++ raw

/-- Ann logs in a second time, with a token that is taken at first, and logs out of the first
session. -/
def annScript : List AuthAction := [
  .register ⟨"root", "pw", .admin, some "opening"⟩ [1, 171], .create 0 "r" 0 false,
  .register { username := "ann", password := "pw" } [7], .create 0 "a" 1 false,
  .login { username := "ann", password := "pw" }, .verify 0, .issue 0 "a" 5 false,
  .issue 0 "b" 6 false, .logout (some "Bearer a") 7, .settle 0 false]

theorem current_user_proven_ann : ∃ s user, (machine plainAuth).run {} annScript = some s ∧
    user.username = "ann" ∧ s.ended = ["digest of a"] ∧
    Authenticated plainAuth s (some "Bearer b") 8 user := by
  have ran : ((machine plainAuth).run {} annScript).any (fun s =>
      s.ended = ["digest of a"] ∧ (currentUser plainAuth s (some "Bearer b") 8).any fun user =>
        user.username = "ann") = true := by decide +kernel
  obtain ⟨s, found, ended⟩ := (Option.any_eq_true ..).mp ran
  obtain ⟨ended, acts⟩ := of_decide_eq_true ended
  obtain ⟨user, passes, named⟩ := (Option.any_eq_true ..).mp acts
  exact ⟨s, user, found, of_decide_eq_true named, ended,
    current_user_proven (Machine.reachable_of_run annScript rfl found) passes⟩

end Accounts
end MapGo.Server
