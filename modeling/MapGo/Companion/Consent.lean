import MapGo.Basic
import MapGo.Transition

/-! Consent of a trip's owner. Grants and revocations append rows; nothing is
updated. The API reads the latest row of a scope, while the Worker and the tool
endpoint collect every row that grants it. They agree on a history exactly when
no grant in force is followed by a latest row that is not. -/
namespace MapGo.Companion
open Transition

inductive ConsentScope where
  | preciseLocation | backgroundLocation | shareLocation | savePreference | contactPerson
  deriving DecidableEq, Repr

def ConsentScope.value : ConsentScope → String
  | .preciseLocation => "precise_location"
  | .backgroundLocation => "background_location"
  | .shareLocation => "share_location"
  | .savePreference => "save_preference"
  | .contactPerson => "contact_person"

/-- `ConsentScope(value)`; `none` is its `ValueError`. -/
def ConsentScope.ofValue (value : String) : Option ConsentScope :=
  [preciseLocation, backgroundLocation, shareLocation, savePreference, contactPerson].find?
    (fun scope => scope.value = value)

@[simp] theorem ConsentScope.ofValue_value (scope : ConsentScope) :
    ofValue scope.value = some scope := by
  cases scope <;> decide

theorem ConsentScope.value_injective {a b : ConsentScope} (same : a.value = b.value) : a = b :=
  Option.some.inj (by rw [← ofValue_value a, same, ofValue_value])

structure UserConsent where
  id : Nat
  userId : Nat
  tripSessionId : Option Nat
  scope : String
  granted : Bool
  grantedAt : Option Instant
  expiresAt : Option Instant
  revokedAt : Option Instant
  deriving DecidableEq, Repr

structure ConsentRequest where
  scope : ConsentScope
  granted : Bool
  expiresAt : Option Instant
  deriving DecidableEq, Repr

/-- The columns of `trip_sessions` that consent reads and writes. -/
structure Trip where
  userId : Nat
  trackingEnabled : Bool
  deriving DecidableEq, Repr

structure ConsentDb where
  trips : Nat → Option Trip
  consents : List UserConsent
  nextConsentId : Nat

namespace ConsentDb

/-- `_trip` -/
def trip (db : ConsentDb) (tripId userId : Nat) : Except AppError Trip :=
  match (db.trips tripId).filter (fun trip => trip.userId = userId) with
  | some trip => .ok trip
  | none => .error ⟨404, "TRIP_SESSION_NOT_FOUND", "行程会话不存在"⟩

def setConsent (db : ConsentDb) (tripId userId : Nat) (body : ConsentRequest) (now : Instant) :
    Except AppError ConsentDb := do
  let trip ← db.trip tripId userId
  let consent : UserConsent :=
    { id := db.nextConsentId
      userId := userId
      tripSessionId := some tripId
      scope := body.scope.value
      granted := body.granted
      grantedAt := if body.granted then some now else none
      expiresAt := body.expiresAt
      revokedAt := if body.granted then none else some now }
  let trip :=
    if body.scope = .preciseLocation ∨ body.scope = .backgroundLocation then
      { trip with trackingEnabled := body.granted }
    else trip
  return { trips := Function.update db.trips tripId (some trip)
           consents := db.consents ++ [consent]
           nextConsentId := db.nextConsentId + 1 }

/-- `purge_private_data`, the part on consents. -/
def purgeConsents (db : ConsentDb) (userId : Nat) : ConsentDb :=
  { db with consents := db.consents.filter (fun row => row.userId ≠ userId) }

/-- The rows that `_has_consent` selects, oldest first. -/
def scopeRows (db : ConsentDb) (tripId userId : Nat) (scope : ConsentScope) : List UserConsent :=
  db.consents.filter fun row => row.userId = userId ∧ row.tripSessionId = some tripId ∧
    row.scope = scope.value

/-- `_has_consent` -/
def hasConsent (db : ConsentDb) (tripId userId : Nat) (scope : ConsentScope) (now : Instant) :
    Bool :=
  match (db.scopeRows tripId userId scope).mergeSort (fun a b => b.id ≤ a.id) with
  | [] => false
  | latest :: _ =>
      latest.granted && latest.revokedAt.isNone && latest.expiresAt.all (fun expires => now < expires)

/-- The rows selected by the Worker and by the tool endpoint. -/
def grantedRows (db : ConsentDb) (tripId userId : Nat) : List UserConsent :=
  db.consents.filter fun row => row.tripSessionId = some tripId ∧ row.userId = userId ∧
    row.granted ∧ row.revokedAt.isNone

/-- `_consents_for_trip`: unknown scopes are skipped. -/
def consentsForTrip (db : ConsentDb) (tripId userId : Nat) (now : Instant) : List ConsentScope :=
  (db.grantedRows tripId userId).filterMap fun row =>
    if row.expiresAt.all (fun expires => now < expires) then ConsentScope.ofValue row.scope else none

/-- The consents of `execute_agent_tool`; `none` where an unknown scope raises. -/
def consentsForTool (db : ConsentDb) (tripId userId : Nat) (now : Instant) :
    Option (List ConsentScope) :=
  ((db.grantedRows tripId userId).filter fun row =>
    row.expiresAt.all (fun expires => now < expires)).mapM fun row => ConsentScope.ofValue row.scope

end ConsentDb

inductive ConsentAction where
  | setConsent (tripId userId : Nat) (body : ConsentRequest) (now : Instant)
  | purge (userId : Nat)

/-- The consent history of any number of trips and users. -/
def consentMachine : Machine ConsentDb ConsentAction where
  initial db := db.consents = []
  step db
    | .setConsent tripId userId body now => (db.setConsent tripId userId body now).toOption
    | .purge userId => some (db.purgeConsents userId)

/-- A row that grants its scope at the given time. -/
def UserConsent.InForce (row : UserConsent) (now : Instant) : Prop :=
  row.granted = true ∧ row.revokedAt = none ∧ ∀ expires, row.expiresAt = some expires → now < expires

/-- No row in force is followed by a latest row that is not in force. -/
def NoStaleGrant (rows : List UserConsent) (now : Instant) : Prop :=
  ∀ earlier row later latest, rows = earlier ++ row :: later → row.InForce now →
    later.getLast? = some latest → latest.InForce now

theorem noStaleGrant_of_latest {rows : List UserConsent} (last : rows.getLast? = some latest)
    (inForce : latest.InForce now) : NoStaleGrant rows now := by
  intro earlier row later latest' split _ last'
  have same : rows.getLast? = some latest' := by
    rw [split, List.getLast?_append, List.getLast?_cons, last']
    rfl
  exact Option.some.inj (last.symm.trans same) ▸ inForce

/-- Some row passes a test exactly when the last one does, unless one that passes is superseded. -/
theorem exists_mem_iff_getLast? (rows : List α) {P : α → Prop} :
    ((∃ row ∈ rows, P row) ↔ ∃ row, rows.getLast? = some row ∧ P row) ↔
      ∀ earlier row later latest, rows = earlier ++ row :: later → P row →
        later.getLast? = some latest → P latest := by
  constructor
  · intro same earlier row later latest split passes last
    have whole : rows.getLast? = some latest := by
      rw [split, List.getLast?_append, List.getLast?_cons, last]
      rfl
    obtain ⟨_, last', passes'⟩ := same.mp ⟨row, split ▸ by simp, passes⟩
    rw [whole, Option.some.injEq] at last'
    exact last' ▸ passes'
  · intro kept
    constructor
    · rintro ⟨row, member, passes⟩
      obtain ⟨earlier, later, split⟩ := List.append_of_mem member
      cases last : later.getLast? with
      | none =>
          rw [List.getLast?_eq_none_iff] at last
          exact ⟨row, by simp [split, last], passes⟩
      | some latest =>
          refine ⟨latest, ?_, kept earlier row later latest split passes last⟩
          rw [split, List.getLast?_append, List.getLast?_cons, last]
          rfl
    · rintro ⟨row, last, passes⟩
      exact ⟨row, List.mem_of_getLast? last, passes⟩

namespace ConsentDb

/-- Rows appear in the order of their ids and carry scopes of the enumeration. -/
structure WellFormed (db : ConsentDb) : Prop where
  ordered : db.consents.Pairwise (fun a b => a.id < b.id)
  below : ∀ row ∈ db.consents, row.id < db.nextConsentId
  known : ∀ row ∈ db.consents, ∃ scope : ConsentScope, row.scope = scope.value

theorem WellFormed.step (inv : WellFormed db) (stepped : consentMachine.step db a = some db') :
    WellFormed db' := by
  cases a with
  | purge userId =>
      cases Option.some.inj stepped
      exact ⟨inv.ordered.filter _, fun row member => inv.below row (List.mem_of_mem_filter member),
        fun row member => inv.known row (List.mem_of_mem_filter member)⟩
  | setConsent tripId userId body now =>
      simp only [consentMachine, setConsent] at stepped
      cases found : db.trip tripId userId with
      | error => simp [found, Except.toOption, bind, Except.bind] at stepped
      | ok trip =>
          simp only [found, bind, Except.bind, pure, Except.pure, Except.toOption,
            Option.some.injEq] at stepped
          subst stepped
          refine ⟨?_, fun row member => ?_, fun row member => ?_⟩
          · refine List.pairwise_append.mpr ⟨inv.ordered, List.pairwise_singleton _ _, ?_⟩
            intro row member new new_member
            rw [List.mem_singleton.mp new_member]
            exact inv.below row member
          · obtain old | new := List.mem_append.mp member
            · exact Nat.lt_succ_of_lt (inv.below row old)
            · rw [List.mem_singleton.mp new]
              exact Nat.lt_succ_self _
          · obtain old | new := List.mem_append.mp member
            · exact inv.known row old
            · exact ⟨body.scope, by rw [List.mem_singleton.mp new]⟩

theorem wellFormed_of_reachable (reached : consentMachine.Reachable db) : WellFormed db := by
  refine reached.invariant (fun db start => ?_) fun inv stepped => inv.step stepped
  have empty : db.consents = [] := start
  constructor <;> simp [empty]

variable {db : ConsentDb} {row : UserConsent} {scope : ConsentScope}

theorem mergeSort_latest {rows : List UserConsent} (ordered : rows.Pairwise (fun a b => a.id < b.id)) :
    rows.mergeSort (fun a b => b.id ≤ a.id) = rows.reverse := by
  have descending : rows.reverse.Pairwise (fun a b => b.id ≤ a.id) :=
    List.pairwise_reverse.mpr (ordered.imp Nat.le_of_lt)
  have sorted : (rows.mergeSort (fun a b => b.id ≤ a.id)).Pairwise (fun a b => b.id ≤ a.id) :=
    (List.pairwise_mergeSort (by simp; omega) (by simp; omega) rows).imp (by simp)
  refine List.Perm.eq_of_pairwise (fun a b inA inB => ?_) sorted descending
    ((List.mergeSort_perm rows _).trans (List.reverse_perm rows).symm)
  intro below above
  have distinct : (rows.map UserConsent.id).Nodup :=
    List.pairwise_map.mpr (ordered.imp Nat.ne_of_lt)
  exact List.inj_on_of_nodup_map distinct (List.mem_mergeSort.mp inA) (List.mem_reverse.mp inB)
    (Nat.le_antisymm above below)

theorem hasConsent_iff (inv : WellFormed db) : db.hasConsent tripId userId scope now = true ↔
    ∃ row, (db.scopeRows tripId userId scope).getLast? = some row ∧ row.InForce now := by
  have ordered : (db.scopeRows tripId userId scope).Pairwise (fun a b => a.id < b.id) :=
    inv.ordered.filter _
  rw [hasConsent, mergeSort_latest ordered, ← List.head?_reverse]
  cases (db.scopeRows tripId userId scope).reverse with
  | nil => simp
  | cons row rest => simp [UserConsent.InForce, Option.all_eq_true, and_assoc]

theorem mem_grantedRows : row ∈ db.grantedRows tripId userId ∧
      row.expiresAt.all (fun expires => now < expires) = true ∧ row.scope = scope.value ↔
    row ∈ db.scopeRows tripId userId scope ∧ row.InForce now := by
  simp only [grantedRows, scopeRows, UserConsent.InForce, List.mem_filter, decide_eq_true_eq,
    Option.isNone_iff_eq_none, Option.all_eq_true]
  tauto

theorem ofValue_known (inv : WellFormed db) (member : row ∈ db.grantedRows tripId userId) :
    ∃ scope, ConsentScope.ofValue row.scope = some scope ∧ row.scope = scope.value := by
  obtain ⟨scope, same⟩ := inv.known row (List.mem_of_mem_filter member)
  exact ⟨scope, by rw [same, ConsentScope.ofValue_value], same⟩

theorem mem_consentsForTrip (inv : WellFormed db) :
    scope ∈ db.consentsForTrip tripId userId now ↔
      ∃ row ∈ db.scopeRows tripId userId scope, row.InForce now := by
  simp only [consentsForTrip, List.mem_filterMap, Option.ite_none_right_eq_some]
  constructor
  · rintro ⟨row, member, unexpired, read⟩
    obtain ⟨scope', read', same⟩ := ofValue_known inv member
    obtain rfl := Option.some.inj (read.symm.trans read')
    exact ⟨row, mem_grantedRows.mp ⟨member, unexpired, same⟩⟩
  · rintro ⟨row, decides⟩
    obtain ⟨member, unexpired, same⟩ := mem_grantedRows.mpr decides
    exact ⟨row, member, unexpired, by rw [same, ConsentScope.ofValue_value]⟩

/-- The tool endpoint never meets an unknown scope and collects the Worker's set. -/
theorem consentsForTool_eq (inv : WellFormed db) :
    db.consentsForTool tripId userId now = some (db.consentsForTrip tripId userId now) := by
  unfold consentsForTool consentsForTrip
  generalize granted : db.grantedRows tripId userId = rows
  have known : ∀ row ∈ rows, ∃ scope, ConsentScope.ofValue row.scope = some scope := by
    intro row member
    obtain ⟨scope, read, -⟩ := ofValue_known inv (granted ▸ member)
    exact ⟨scope, read⟩
  clear granted
  induction rows with
  | nil => rfl
  | cons row rest ih =>
      obtain ⟨scope, read⟩ := known row List.mem_cons_self
      have tail := ih fun row member => known row (List.mem_cons_of_mem _ member)
      by_cases unexpired : row.expiresAt.all (fun expires => now < expires) = true
      · rw [List.filter_cons_of_pos (by simpa using unexpired), List.mapM_cons, tail, read,
          List.filterMap_cons]
        simp [unexpired, read]
      · rw [List.filter_cons_of_neg (by simpa using unexpired), tail, List.filterMap_cons]
        simp [unexpired]

end ConsentDb

/-- On every consent history the Worker, the tool endpoint and the API agree on
a scope exactly when no grant in force is superseded by a latest row that is not. -/
theorem consent_readers_agree_iff (db : ConsentDb) (tripId userId : Nat) (scope : ConsentScope)
    (now : Instant) (reached : consentMachine.Reachable db) :
    ((scope ∈ db.consentsForTrip tripId userId now ↔ db.hasConsent tripId userId scope now = true) ∧
      ∃ consents, db.consentsForTool tripId userId now = some consents ∧
        (scope ∈ consents ↔ db.hasConsent tripId userId scope now = true)) ↔
      NoStaleGrant (db.scopeRows tripId userId scope) now := by
  have inv := ConsentDb.wellFormed_of_reachable reached
  have agree := exists_mem_iff_getLast? (db.scopeRows tripId userId scope)
    (P := fun row => row.InForce now)
  rw [← ConsentDb.mem_consentsForTrip inv, ← ConsentDb.hasConsent_iff inv] at agree
  rw [ConsentDb.consentsForTool_eq inv]
  simpa [NoStaleGrant] using agree

/-- One trip of user 1, before any consent. -/
def oneTripDb : ConsentDb := ⟨fun trip => if trip = 5 then some ⟨1, false⟩ else none, [], 1⟩

theorem consent_readers_agree_granted : ∃ db, consentMachine.Reachable db ∧
    db.consents.length = 2 ∧ ((.preciseLocation ∈ db.consentsForTrip 5 1 30 ↔
      db.hasConsent 5 1 .preciseLocation 30 = true) ∧
      ∃ consents, db.consentsForTool 5 1 30 = some consents ∧
        (.preciseLocation ∈ consents ↔ db.hasConsent 5 1 .preciseLocation 30 = true)) := by
  have reached : consentMachine.Reachable _ := Machine.reachable_of_run
    [.setConsent 5 1 ⟨.preciseLocation, false, none⟩ 10,
      .setConsent 5 1 ⟨.preciseLocation, true, some 40⟩ 20] (s := oneTripDb) rfl rfl
  refine ⟨_, reached, rfl, (consent_readers_agree_iff _ 5 1 .preciseLocation 30 reached).mpr ?_⟩
  refine noStaleGrant_of_latest rfl ⟨rfl, rfl, ?_⟩
  rintro expires ⟨⟩
  decide

/-- A revocation leaves the older grant in the sets of the Worker and the tool endpoint. -/
theorem consent_outlives_revocation : ∃ db, consentMachine.Reachable db ∧
    db.hasConsent 5 1 .preciseLocation 30 = false ∧
    .preciseLocation ∈ db.consentsForTrip 5 1 30 ∧
    db.consentsForTool 5 1 30 = some [.preciseLocation] := by
  have reached : consentMachine.Reachable _ := Machine.reachable_of_run
    [.setConsent 5 1 ⟨.preciseLocation, true, none⟩ 10,
      .setConsent 5 1 ⟨.preciseLocation, false, none⟩ 20] (s := oneTripDb) rfl rfl
  refine ⟨_, reached, ?_, by decide, by decide⟩
  rw [← Bool.not_eq_true, ConsentDb.hasConsent_iff (ConsentDb.wellFormed_of_reachable reached)]
  rintro ⟨row, ⟨⟩, granted, -⟩
  contradiction

end MapGo.Companion
