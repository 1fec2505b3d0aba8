import MapGo.Conversation.Preferences
import MapGo.Transition

/-! The long-term memory of preferences. What a user confirms is kept in a normal form, one row for
each user and key, and fills in what a request leaves open. -/
namespace MapGo.Conversation

open Transition

/-- `str.lower`, with what is used of it. -/
structure Casing where
  lower : String → String
  lower_lower : ∀ text, lower (lower text) = lower text
  lower_stripped : ∀ text, Text.strip text = text → Text.strip (lower text) = lower text

def booleanKeys : List String :=
  ["minimize_distance", "minimize_walking", "minimize_cost", "prefer_high_rating", "avoid_queues",
    "avoid_hiking"]

def listKeys : List String := ["dietary_restrictions", "preferred_categories"]

def environmentValues : List String := ["quiet", "uncrowded", "indoor", "outdoor"]

/-- `SUPPORTED_LONG_TERM_KEYS` -/
def supportedLongTermKeys : List String :=
  booleanKeys ++ listKeys ++ ["optimization_goal", "preferred_environment", "travel_style"]

/-- `OPTIMIZATION_GOALS` of the memory -/
def memoryGoals : List String := ["balanced", "shortest_time", "shortest_distance"]

/-- `TRAVEL_STYLES` of the memory -/
def memoryStyles : List String := ["balanced", "relaxed", "intensive"]

namespace Casing
variable (casing : Casing)

/-- The loop of `_normalized_string_list`. -/
def normalizedItems (allowed : Option (List String)) :
    List Json → List String → Except String (List String)
  | [], normalized => .ok normalized
  | .str item :: rest, normalized =>
      let text := casing.lower (Text.strip item)
      if text = "" ∨ 50 < text.length then .error "preference list item is empty or too long"
      else if allowed.any (text ∉ ·) then .error "preference list contains an unsupported value"
      else normalizedItems allowed rest
        (if text ∈ normalized then normalized else normalized ++ [text])
  | _ :: _, _ => .error "preference list items must be strings"

/-- `_normalized_string_list` -/
def normalizedStringList (allowed : Option (List String)) : Json → Except String Json
  | .array items =>
      if 10 < items.length then .error "preference list is too long"
      else (casing.normalizedItems allowed items []).map fun texts => .array (texts.map .str)
  | _ => .error "preference value must be a list"

def oneOf (values : List String) (refusal : String) : Json → Except String Json
  | .str value => if value ∈ values then .ok (.str value) else .error refusal
  | _ => .error refusal

/-- `normalize_long_term_preference` -/
def normalizeLongTermPreference (key : String) (value : Json) : Except String Json :=
  if key ∉ supportedLongTermKeys then .error "unsupported long-term preference key"
  else if key ∈ booleanKeys then
    match value with
    | .bool value => .ok (.bool value)
    | _ => .error "preference value must be boolean"
  else if key ∈ listKeys then casing.normalizedStringList none value
  else if key = "preferred_environment" then
    casing.normalizedStringList (some environmentValues) value
  else if key = "optimization_goal" then oneOf memoryGoals "unsupported optimization goal" value
  else if key = "travel_style" then oneOf memoryStyles "unsupported travel style" value
  else .error "unsupported long-term preference key"

end Casing

/-! ### Normal forms -/

variable {casing : Casing} {allowed : Option (List String)} {key : String} {value kept : Json}

theorem stripped_stripped (l : List Char) :
    Text.stripped (Text.stripped l) = Text.stripped l := by
  change ((((l.dropWhile Text.isSpace).rdropWhile Text.isSpace).dropWhile
    Text.isSpace).rdropWhile Text.isSpace) = (l.dropWhile Text.isSpace).rdropWhile Text.isSpace
  generalize trimmed : l.dropWhile Text.isSpace = rest
  have begins : (rest.rdropWhile Text.isSpace).dropWhile Text.isSpace =
      rest.rdropWhile Text.isSpace := by
    cases kept : rest.rdropWhile Text.isSpace with
    | nil => rfl
    | cons c later =>
        obtain ⟨ending, whole⟩ := List.rdropWhile_prefix Text.isSpace rest
        have first := List.head?_dropWhile_not Text.isSpace l
        rw [trimmed, ← whole, kept] at first
        exact List.dropWhile_cons_of_neg (by simpa using first)
  rw [begins, List.rdropWhile_idempotent]

theorem strip_strip (text : String) : Text.strip (Text.strip text) = Text.strip text := by
  rw [Text.strip, Text.strip, String.toList_ofList, stripped_stripped]

/-- A text without blanks around it has a character that is not blank. -/
theorem any_of_stripped {text : String} (stripped : Text.strip text = text) (some_text : text ≠ "") :
    text.toList.any (!Text.isSpace ·) = true := by
  by_contra blank
  have spaces : ∀ c ∈ text.toList, Text.isSpace c = true := by simpa using blank
  refine some_text (stripped.symm.trans ?_)
  have gone : text.toList.dropWhile Text.isSpace = [] := List.dropWhile_eq_nil_iff.mpr spaces
  simp [Text.strip, Text.stripped, gone]

/-- An item as it is kept. -/
structure NormalItem (casing : Casing) (allowed : Option (List String)) (text : String) : Prop where
  filled : text ≠ ""
  short : text.length ≤ 50
  stripped : Text.strip text = text
  lowered : casing.lower text = text
  among : ∀ values ∈ allowed, text ∈ values

theorem normalizedItems_normal {items : List Json} {normalized texts : List String}
    (read : casing.normalizedItems allowed items normalized = .ok texts)
    (normal : ∀ text ∈ normalized, NormalItem casing allowed text) (distinct : normalized.Nodup) :
    (∀ text ∈ texts, NormalItem casing allowed text) ∧ texts.Nodup ∧
      texts.length ≤ normalized.length + items.length := by
  induction items generalizing normalized with
  | nil =>
      cases read
      exact ⟨normal, distinct, Nat.le_refl _⟩
  | cons item rest ih =>
      cases item with
      | str item =>
          simp only [Casing.normalizedItems] at read
          split at read
          · cases read
          rename_i fits
          split at read
          · cases read
          rename_i among
          have item_normal : NormalItem casing allowed (casing.lower (Text.strip item)) := by
            refine ⟨fun blank => fits (.inl blank), by omega,
              casing.lower_stripped _ (strip_strip item), casing.lower_lower _, ?_⟩
            simpa [Option.any_eq_false] using among
          obtain ⟨all, once, few⟩ := ih read (by
            intro text member
            split at member
            · exact normal text member
            · rcases List.mem_append.mp member with earlier | last
              · exact normal text earlier
              · exact List.mem_singleton.mp last ▸ item_normal) (by
            split
            · exact distinct
            · rename_i fresh
              exact List.concat_eq_append ▸ distinct.concat fresh)
          refine ⟨all, once, few.trans ?_⟩
          split
          · simp
          · simp
            omega
      | null | bool _ | number _ | array _ | object _ => cases read

/-- Normal items that are all different are read as they are. -/
theorem normalizedItems_self {texts normalized : List String}
    (normal : ∀ text ∈ texts, NormalItem casing allowed text)
    (distinct : (normalized ++ texts).Nodup) :
    casing.normalizedItems allowed (texts.map .str) normalized = .ok (normalized ++ texts) := by
  induction texts generalizing normalized with
  | nil => rw [List.append_nil]; rfl
  | cons text rest ih =>
      have item := normal text List.mem_cons_self
      have fresh : text ∉ normalized := fun earlier =>
        (List.nodup_append.mp distinct).2.2 text earlier text List.mem_cons_self rfl
      have allowed_text : ¬ (allowed.any (text ∉ ·) = true) := by
        simpa [Option.any_eq_false] using item.among
      have fits : ¬ (text = "" ∨ 50 < text.length) := by
        have short := item.short
        simp [item.filled]
        omega
      rw [List.map_cons, Casing.normalizedItems, item.stripped, item.lowered]
      rw [if_neg fits, if_neg allowed_text, if_neg fresh, ih, List.append_assoc]
      · rfl
      · exact fun other member => normal other (List.mem_cons_of_mem _ member)
      · simpa using distinct

theorem normalizedStringList_kept (read : casing.normalizedStringList allowed value = .ok kept) :
    ∃ texts : List String, kept = .array (texts.map .str) ∧
      (∀ text ∈ texts, NormalItem casing allowed text) ∧ texts.Nodup ∧ texts.length ≤ 10 := by
  unfold Casing.normalizedStringList at read
  split at read
  · rename_i items
    split at read
    · cases read
    rename_i few
    cases loop : casing.normalizedItems allowed items [] with
    | error refusal =>
        rw [loop] at read
        cases read
    | ok texts =>
        rw [loop] at read
        cases read
        obtain ⟨normal, distinct, length⟩ := normalizedItems_normal loop nofun List.nodup_nil
        exact ⟨texts, rfl, normal, distinct, by simpa using length.trans (by simpa using few)⟩
  · cases read

theorem normalizedStringList_self {texts : List String}
    (normal : ∀ text ∈ texts, NormalItem casing allowed text) (distinct : texts.Nodup)
    (few : texts.length ≤ 10) :
    casing.normalizedStringList allowed (.array (texts.map .str)) =
      .ok (.array (texts.map .str)) := by
  rw [Casing.normalizedStringList, List.length_map, if_neg (by omega), normalizedItems_self normal
    (by simpa using distinct)]
  rfl

/-- The check of a request takes a list of normal items. -/
theorem itemList_normal {limit : Nat} {valid : Json → Bool} {texts : List String}
    (few : texts.length ≤ limit) (all : ∀ text ∈ texts, valid (.str text) = true) :
    itemList limit valid (.array (texts.map .str)) = some (.array (texts.map .str)) := by
  rw [itemList, if_pos]
  exact ⟨by simpa using few, by simpa using all⟩

theorem listItem_normal {text : String} (normal : NormalItem casing allowed text) :
    listItem (.str text) = true := by
  have visible := any_of_stripped normal.stripped normal.filled
  simp only [listItem, visible, normal.short, decide_true, Bool.and_self]

theorem oneOf_kept {values : List String} {refusal : String}
    (chosen : Casing.oneOf values refusal value = .ok kept) :
    ∃ text ∈ values, value = .str text ∧ kept = .str text := by
  unfold Casing.oneOf at chosen
  split at chosen
  · rename_i text
    split at chosen
    · rename_i member
      cases chosen
      exact ⟨text, member, rfl, rfl⟩
    · cases chosen
  · cases chosen

/-- What is kept is its own normal form, and an answer that a request may give. -/
theorem normalize_kept (normal : casing.normalizeLongTermPreference key value = .ok kept) :
    casing.normalizeLongTermPreference key kept = .ok kept ∧
      preferenceAnswer key kept = some kept := by
  unfold Casing.normalizeLongTermPreference at normal
  split at normal
  · cases normal
  rename_i supported
  split at normal
  · rename_i boolean
    split at normal
    · cases normal
      have answer : key ∈ booleanPreferences := boolean
      exact ⟨by simp [Casing.normalizeLongTermPreference, not_not.mp supported, boolean],
        by simp [preferenceAnswer, answer]⟩
    · cases normal
  rename_i other
  split at normal
  · rename_i listed
    obtain ⟨texts, rfl, items, distinct, few⟩ := normalizedStringList_kept normal
    have again := normalizedStringList_self items distinct few
    have valid : ∀ text ∈ texts, listItem (.str text) = true :=
      fun text member => listItem_normal (items text member)
    constructor
    · unfold Casing.normalizeLongTermPreference
      rw [if_neg supported, if_neg other, if_pos listed, again]
    rcases List.mem_pair.mp listed with rfl | rfl
    · exact itemList_normal (few.trans (by decide)) valid
    · exact itemList_normal few valid
  rename_i unlisted
  split at normal
  · rename_i environment
    subst environment
    obtain ⟨texts, rfl, items, distinct, few⟩ := normalizedStringList_kept normal
    have among : texts ⊆ environmentValues := fun text member =>
      (items text member).among _ rfl
    refine ⟨normalizedStringList_self items distinct few, ?_⟩
    refine itemList_normal (distinct.subperm among).length_le fun text member => ?_
    exact decide_eq_true (among member)
  split at normal
  · rename_i goal
    subst goal
    obtain ⟨text, member, rfl, rfl⟩ := oneOf_kept normal
    exact ⟨normal, if_pos member⟩
  split at normal
  · rename_i style
    subst style
    obtain ⟨text, member, rfl, rfl⟩ := oneOf_kept normal
    exact ⟨normal, if_pos member⟩
  · cases normal

/-! ### The table of preferences -/

structure UserPreference where
  id : Nat
  userId : Nat
  key : String
  /-- What the stored text is read as, if it is JSON. -/
  value : Option Json
  deriving DecidableEq

/-- A request between its query and its commit. -/
inductive Editing where
  | saving (userId : Nat) (key : String) (value : Json) (row : Option Nat)
  | deleting (row : Nat)
  deriving DecidableEq

/-- The table, the requests under way, and what was confirmed. -/
structure PreferenceTable where
  rows : List UserPreference
  nextId : Nat
  editing : List Editing := []
  confirmed : List (Nat × String × Json) := []
  deriving DecidableEq

inductive PreferenceAction where
  /-- `save_preference`, up to the query of `save_confirmed`. -/
  | save (userId : Nat) (key : String) (value : Json) (confirmed : Bool)
  /-- `delete_preference`, up to the query. -/
  | delete (userId : Nat) (key : String)
  /-- The commit of a save or a deletion; it may fail. -/
  | commit (place : Nat) (fails : Bool)
  /-- `UserPreferenceMemory.purge` -/
  | purge (userId : Nat)
  deriving DecidableEq

namespace PreferenceTable
variable (casing : Casing)

def find (s : PreferenceTable) (userId : Nat) (key : String) : Option UserPreference :=
  s.rows.find? fun row => row.userId = userId ∧ row.key = key

/-- A row that is gone is not written, and a second row of a user and a key is refused. -/
def write (s : PreferenceTable) : Editing → PreferenceTable
  | .saving userId key value (some id) =>
      if id ∈ s.rows.map UserPreference.id then
        { s with
          rows := s.rows.map fun row => if row.id = id then { row with value := some value } else row
          confirmed := s.confirmed ++ [(userId, key, value)] }
      else s
  | .saving userId key value none =>
      if (s.find userId key).isSome then s
      else
        { s with
          rows := s.rows ++ [⟨s.nextId, userId, key, some value⟩]
          nextId := s.nextId + 1
          confirmed := s.confirmed ++ [(userId, key, value)] }
  | .deleting id => { s with rows := s.rows.filter fun row => row.id ≠ id }

def pair (row : UserPreference) : Nat × String := (row.userId, row.key)

/-- Requests come between the query and the commit of one another. Ids are not used again. -/
def machine (stored : List UserPreference) : Machine PreferenceTable PreferenceAction where
  initial s := s.rows = stored ∧ (stored.map UserPreference.id).Nodup ∧
    (stored.map pair).Nodup ∧ (∀ row ∈ stored, row.id < s.nextId) ∧ s.editing = [] ∧
    s.confirmed = []
  step s
    | .save userId key value confirmed =>
        if confirmed then match casing.normalizeLongTermPreference key value with
          | .ok normalized => some { s with editing := s.editing ++
              [.saving userId key normalized ((s.find userId key).map UserPreference.id)] }
          | .error _ => some s
        else some s
    | .delete userId key => match s.find userId key with
        | some row => some { s with editing := s.editing ++ [.deleting row.id] }
        | none => some s
    | .commit place fails => match s.editing[place]? with
        | some edit =>
            let rest := { s with editing := s.editing.eraseIdx place }
            some (if fails then rest else rest.write edit)
        | none => none
    | .purge userId => some { s with rows := s.rows.filter fun row => row.userId ≠ userId }

/-- A row was there before, or holds what its user confirmed. -/
def Backed (stored : List UserPreference) (s : PreferenceTable) (row : UserPreference) : Prop :=
  row ∈ stored ∨ ∃ value, row.value = some value ∧ (row.userId, row.key, value) ∈ s.confirmed

/-- The row of a save is that of its user and key. -/
def Targets (s : PreferenceTable) : Editing → Prop
  | .saving userId key value row => casing.normalizeLongTermPreference key value = .ok value ∧
      ∀ id ∈ row, id < s.nextId ∧ ∀ other ∈ s.rows, other.id = id →
        other.userId = userId ∧ other.key = key
  | .deleting _ => True

structure Kept (stored : List UserPreference) (s : PreferenceTable) : Prop where
  ids : (s.rows.map UserPreference.id).Nodup
  fresh : ∀ row ∈ s.rows, row.id < s.nextId
  once : (s.rows.map pair).Nodup
  backed : ∀ row ∈ s.rows, Backed stored s row
  targets : ∀ edit ∈ s.editing, Targets casing s edit
  normal : ∀ entry ∈ s.confirmed,
    casing.normalizeLongTermPreference entry.2.1 entry.2.2 = .ok entry.2.2

variable {casing} {stored : List UserPreference} {s t : PreferenceTable} {edit : Editing}
  {row : UserPreference}

theorem find_some (found : s.find userId key = some row) :
    row ∈ s.rows ∧ row.userId = userId ∧ row.key = key := by
  have here := List.find?_some found
  exact ⟨List.mem_of_find?_eq_some found, of_decide_eq_true here⟩

theorem Backed.mono (backed : Backed stored s row) (grown : s.confirmed ⊆ t.confirmed) :
    Backed stored t row :=
  backed.imp_right fun ⟨value, holds, entry⟩ => ⟨value, holds, grown entry⟩

/-- The rows of a later table are those from before, with their keys, or newer ones. -/
def Follows (s t : PreferenceTable) : Prop :=
  s.nextId ≤ t.nextId ∧ ∀ row ∈ t.rows, s.nextId ≤ row.id ∨
    ∃ old ∈ s.rows, old.id = row.id ∧ pair old = pair row

theorem Targets.mono (targets : Targets casing s edit) (follows : Follows s t) :
    Targets casing t edit := by
  cases edit with
  | deleting id => trivial
  | saving userId key value row =>
      refine ⟨targets.1, fun id found => ?_⟩
      obtain ⟨older, same⟩ := targets.2 id found
      refine ⟨older.trans_le follows.1, fun other member here => ?_⟩
      rcases follows.2 other member with newer | ⟨old, before, old_id, keyed⟩
      · omega
      · obtain ⟨user, named⟩ := same old before (old_id.trans here)
        rw [pair, pair, Prod.mk.injEq] at keyed
        exact ⟨keyed.1 ▸ user, keyed.2 ▸ named⟩

theorem Follows.of_subset (inside : t.rows ⊆ s.rows) (next : t.nextId = s.nextId) :
    Follows s t :=
  ⟨next.ge, fun row member => .inr ⟨row, inside member, rfl, rfl⟩⟩

/-- Rows are taken away. -/
theorem Kept.filter (kept : Kept casing stored s) (p : UserPreference → Bool) :
    Kept casing stored { s with rows := s.rows.filter p } where
  ids := kept.ids.sublist (List.filter_sublist.map _)
  fresh row member := kept.fresh row (List.mem_of_mem_filter member)
  once := kept.once.sublist (List.filter_sublist.map _)
  backed row member := kept.backed row (List.mem_of_mem_filter member)
  targets edit member :=
    (kept.targets edit member).mono (.of_subset (List.filter_subset_self _) rfl)
  normal := kept.normal

theorem Kept.write (kept : Kept casing stored s) (targets : Targets casing s edit) :
    Kept casing stored (s.write edit) := by
  cases edit with
  | deleting id => exact kept.filter _
  | saving userId key value found =>
      obtain ⟨normal, same⟩ := targets
      have recorded : ∀ entry ∈ s.confirmed ++ [(userId, key, value)],
          casing.normalizeLongTermPreference entry.2.1 entry.2.2 = .ok entry.2.2 := by
        simpa [or_imp, forall_and] using ⟨fun a b c => kept.normal (a, b, c), normal⟩
      cases found with
      | some id =>
          simp only [PreferenceTable.write]
          split
          · have updated (row : UserPreference) :
                (if row.id = id then { row with value := some value } else row).id = row.id ∧
                pair (if row.id = id then { row with value := some value } else row) =
                  pair row := by
              split <;> exact ⟨rfl, rfl⟩
            refine ⟨?_, ?_, ?_, ?_, ?_, recorded⟩
            · simpa only [List.map_map, Function.comp_def, updated] using kept.ids
            · intro row member
              obtain ⟨old, before, rfl⟩ := List.mem_map.mp member
              exact (updated old).1.trans_lt (kept.fresh old before)
            · simpa only [List.map_map, Function.comp_def, updated] using kept.once
            · intro row member
              obtain ⟨old, before, rfl⟩ := List.mem_map.mp member
              split
              · rename_i here
                obtain ⟨user, named⟩ := (same id rfl).2 old before here
                exact .inr ⟨value, rfl, by simp [user, named]⟩
              · exact (kept.backed old before).mono (List.subset_append_left ..)
            · intro edit member
              refine (kept.targets edit member).mono ⟨Nat.le_refl _, fun row here => ?_⟩
              obtain ⟨old, before, rfl⟩ := List.mem_map.mp here
              exact .inr ⟨old, before, (updated old).1.symm, (updated old).2.symm⟩
          · exact kept
      | none =>
          simp only [PreferenceTable.write]
          split
          · exact kept
          · rename_i absent
            have unheld : (userId, key) ∉ s.rows.map pair := by
              intro member
              obtain ⟨row, before, keyed⟩ := List.mem_map.mp member
              obtain ⟨user, named⟩ := Prod.mk.inj keyed
              refine absent (List.find?_isSome.mpr ⟨row, before, ?_⟩)
              exact decide_eq_true ⟨user, named⟩
            have newest : s.nextId ∉ s.rows.map UserPreference.id := by
              intro member
              obtain ⟨row, before, same_id⟩ := List.mem_map.mp member
              exact absurd (kept.fresh row before) (by omega)
            refine ⟨?_, ?_, ?_, ?_, ?_, recorded⟩
            · rw [List.map_append]
              exact List.concat_eq_append ▸ kept.ids.concat newest
            · intro row member
              rcases List.mem_append.mp member with before | last
              · exact (kept.fresh row before).trans (Nat.lt_succ_self _)
              · obtain rfl := List.mem_singleton.mp last
                exact Nat.lt_succ_self _
            · rw [List.map_append]
              exact List.concat_eq_append ▸ kept.once.concat unheld
            · intro row member
              rcases List.mem_append.mp member with before | last
              · exact (kept.backed row before).mono (List.subset_append_left ..)
              · obtain rfl := List.mem_singleton.mp last
                exact .inr ⟨value, rfl, by simp⟩
            · intro edit member
              refine (kept.targets edit member).mono ⟨Nat.le_succ _, fun row here => ?_⟩
              rcases List.mem_append.mp here with before | last
              · exact .inr ⟨row, before, rfl, rfl⟩
              · exact .inl (List.mem_singleton.mp last ▸ Nat.le_refl _)

/-- What stays of the requests under way. -/
theorem Kept.edits (kept : Kept casing stored s) {editing : List Editing}
    (targets : ∀ edit ∈ editing, Targets casing s edit) :
    Kept casing stored { s with editing := editing } :=
  ⟨kept.ids, kept.fresh, kept.once, kept.backed, fun edit member =>
    (targets edit member).mono (.of_subset (List.Subset.refl _) rfl), kept.normal⟩

theorem Kept.step (kept : Kept casing stored s)
    (stepped : (machine casing stored).step s action = some t) : Kept casing stored t := by
  cases action with
  | save userId key value confirmed =>
      simp only [machine] at stepped
      split at stepped
      · split at stepped
        · rename_i normalized normal
          cases stepped
          refine kept.edits fun edit member => ?_
          rcases List.mem_append.mp member with before | last
          · exact kept.targets edit before
          · obtain rfl := List.mem_singleton.mp last
            refine ⟨(normalize_kept normal).1, fun id found => ?_⟩
            obtain ⟨row, chosen, rfl⟩ := Option.map_eq_some_iff.mp found
            obtain ⟨inside, user, named⟩ := find_some chosen
            refine ⟨kept.fresh row inside, fun other member same => ?_⟩
            obtain rfl := List.inj_on_of_nodup_map kept.ids member inside same
            exact ⟨user, named⟩
        · cases stepped
          exact kept
      · cases stepped
        exact kept
  | delete userId key =>
      simp only [machine] at stepped
      split at stepped
      · cases stepped
        refine kept.edits fun edit member => ?_
        rcases List.mem_append.mp member with before | last
        · exact kept.targets edit before
        · obtain rfl := List.mem_singleton.mp last
          trivial
      · cases stepped
        exact kept
  | commit place fails =>
      simp only [machine] at stepped
      split at stepped
      · rename_i edit found
        have targets := kept.targets edit (List.mem_of_getElem? found)
        have rest : Kept casing stored { s with editing := s.editing.eraseIdx place } :=
          kept.edits fun other member => kept.targets other (List.mem_of_mem_eraseIdx member)
        cases stepped
        split
        · exact rest
        · exact rest.write (targets.mono (.of_subset (List.Subset.refl _) rfl))
      · cases stepped
  | purge userId =>
      cases stepped
      exact kept.filter _

theorem table_kept (reached : (machine casing stored).Reachable s) : Kept casing stored s := by
  refine reached.invariant (P := Kept casing stored) ?_ Kept.step
  rintro s ⟨rows, ids, once, fresh, editing, confirmed⟩
  refine ⟨rows ▸ ids, rows ▸ fresh, rows ▸ once, ?_, ?_, ?_⟩
  · exact fun row member => .inl (rows ▸ member)
  · simp [editing]
  · simp [confirmed]

end PreferenceTable

/-! ### Defaults for a request -/

namespace Casing
variable (casing : Casing)

def readRow (row : UserPreference) : Option Json :=
  row.value.bind fun value => (casing.normalizeLongTermPreference row.key value).toOption

/-- `load_confirmed`, from the rows of the query on. -/
def loadConfirmed (rows : List UserPreference) : Dict × List String :=
  rows.foldl (fun (values, ignored) row =>
    match casing.readRow row with
    | some value => (values.put row.key value, ignored)
    | none => (values, ignored ++ [row.key])) ([], [])

variable {casing} {rows : List UserPreference}

theorem load_concat (rows : List UserPreference) (row : UserPreference) :
    casing.loadConfirmed (rows ++ [row]) = match casing.readRow row with
      | some value => ((casing.loadConfirmed rows).1.put row.key value,
          (casing.loadConfirmed rows).2)
      | none => ((casing.loadConfirmed rows).1, (casing.loadConfirmed rows).2 ++ [row.key]) := by
  rw [loadConfirmed, List.foldl_append]
  rfl

/-- The rows of a user have different keys, and every readable one is found. -/
theorem lookup_load (distinct : (rows.map UserPreference.key).Nodup) :
    (casing.loadConfirmed rows).1.lookup key = some value ↔
      ∃ row ∈ rows, row.key = key ∧ casing.readRow row = some value := by
  induction rows using List.reverseRecOn generalizing value with
  | nil => simp [loadConfirmed]
  | append_singleton rows row ih =>
      rw [List.map_append, List.nodup_append] at distinct
      obtain ⟨earlier, -, apart⟩ := distinct
      have other (old : UserPreference) (before : old ∈ rows) : old.key ≠ row.key :=
        apart old.key (List.mem_map_of_mem before) row.key (by simp)
      have read : (casing.loadConfirmed rows).1.lookup key = some value ↔
          ∃ row ∈ rows, row.key = key ∧ casing.readRow row = some value := ih earlier
      rw [load_concat]
      cases found : casing.readRow row with
      | some last =>
          by_cases same : key = row.key
          · subst same
            simp only [Dict.lookup_put_self, Option.some.injEq, List.mem_append,
              List.mem_singleton]
            constructor
            · rintro rfl
              exact ⟨row, .inr rfl, rfl, found⟩
            · rintro ⟨old, before | rfl, named, holds⟩
              · exact absurd named (other old before)
              · exact Option.some.inj (found.symm.trans holds)
          · simp only [Dict.lookup_put_of_ne same, read, List.mem_append, List.mem_singleton]
            constructor
            · exact fun ⟨old, before, rest⟩ => ⟨old, .inl before, rest⟩
            · rintro ⟨old, before | rfl, named, holds⟩
              · exact ⟨old, before, named, holds⟩
              · exact absurd named.symm same
      | none =>
          simp only [read, List.mem_append, List.mem_singleton]
          constructor
          · exact fun ⟨old, before, rest⟩ => ⟨old, .inl before, rest⟩
          · rintro ⟨old, before | rfl, named, holds⟩
            · exact ⟨old, before, named, holds⟩
            · cases found.symm.trans holds

theorem mem_ignored :
    key ∈ (casing.loadConfirmed rows).2 ↔
      ∃ row ∈ rows, row.key = key ∧ casing.readRow row = none := by
  induction rows using List.reverseRecOn with
  | nil => simp [loadConfirmed]
  | append_singleton rows row ih =>
      rw [load_concat]
      cases found : casing.readRow row with
      | some last =>
          simp only [ih, List.mem_append, List.mem_singleton]
          constructor
          · exact fun ⟨old, before, rest⟩ => ⟨old, .inl before, rest⟩
          · rintro ⟨old, before | rfl, named, holds⟩
            · exact ⟨old, before, named, holds⟩
            · cases found.symm.trans holds
      | none =>
          simp only [List.mem_append, List.mem_singleton, ih]
          constructor
          · rintro (⟨old, before, rest⟩ | rfl)
            · exact ⟨old, .inl before, rest⟩
            · exact ⟨row, .inr rfl, rfl, found⟩
          · rintro ⟨old, before | rfl, named, holds⟩
            · exact .inl ⟨old, before, named, holds⟩
            · exact .inr named.symm

theorem load_distinct (casing : Casing) (rows : List UserPreference) :
    ((casing.loadConfirmed rows).1.map Prod.fst).Nodup := by
  induction rows using List.reverseRecOn with
  | nil => exact List.nodup_nil
  | append_singleton rows row ih =>
      rw [load_concat]
      cases casing.readRow row with
      | some last =>
          simp only [Dict.put]
          split
          · have same : (List.map (fun entry => if entry.1 = row.key then (row.key, last)
                else entry) (casing.loadConfirmed rows).1).map Prod.fst =
                (casing.loadConfirmed rows).1.map Prod.fst := by
              rw [List.map_map]
              refine List.map_congr_left fun entry _ => ?_
              by_cases here : entry.1 = row.key
              · simp [here]
              · simp [here]
            exact same ▸ ih
          · rename_i fresh
            rw [List.map_append]
            exact List.concat_eq_append ▸ ih.concat fresh
      | none => exact ih

end Casing

/-! ### What a request gets from the memory -/

section
variable {L : Leaves} {stored : List UserPreference} {s : PreferenceTable} {userId : Nat}

def answersOf (request : PlanRequest L) : Dict :=
  List.map Subtype.val (show List PreferenceAnswer from request .preferencesAnswers)

def textOf (request : PlanRequest L) : String :=
  (show {text : String // 2 ≤ text.length ∧ text.length ≤ 4000} from request .text).val

def usesMemory (request : PlanRequest L) : Bool := request .useLongTermMemory

/-- The effective request of a user over the values that were loaded. -/
structure FillsIn (T : Texts) (stored : List UserPreference) (s : PreferenceTable) (userId : Nat)
    (request effective : PlanRequest L) (values : Dict) (ignored : List String) : Prop where
  applied : answersOf effective =
    applyLongTermPreferences T (textOf request) (usesMemory request) (answersOf request) values
  rest : ∀ f, f ≠ .preferencesAnswers → effective f = request f
  filled : ∀ key, (answersOf effective).lookup key = ((answersOf request).lookup key).or
    (if usesMemory request && !skipped T (textOf request) (answersOf request) key
      then values.lookup key else none)
  /-- A value is what its user has confirmed, or was there before. -/
  backed : ∀ key value, values.lookup key = some value →
    (userId, key, value) ∈ s.confirmed ∨ ∃ row ∈ stored, row.userId = userId ∧ row.key = key
  /-- What was confirmed and is still there counts. -/
  kept : ∀ row ∈ s.rows, row.userId = userId → row ∉ stored →
    values.lookup row.key = row.value ∧ row.key ∉ ignored

theorem keys_distinct (kept : PreferenceTable.Kept casing stored s)
    {selected : List UserPreference}
    (query : selected.Perm (s.rows.filter fun row => row.userId = userId)) :
    (selected.map UserPreference.key).Nodup := by
  refine (query.map _).nodup_iff.mpr (List.Nodup.of_map (userId, ·) ?_)
  have pairs := kept.once.sublist ((List.filter_sublist (p := fun row =>
    decide (row.userId = userId))).map PreferenceTable.pair)
  rw [List.map_map]
  convert pairs using 1
  refine List.map_congr_left fun row member => ?_
  simp only [List.mem_filter, decide_eq_true_eq] at member
  simp [PreferenceTable.pair, member.2]

theorem ok_of_toOption {ε α : Type} {answer : Except ε α} {a : α}
    (read : answer.toOption = some a) : answer = .ok a := by
  cases answer with
  | ok value => exact congrArg _ (Option.some.inj read)
  | error refusal => cases read

/-- Every default passes the check of a request. -/
theorem load_valid {selected : List UserPreference} :
    ∀ entry ∈ (casing.loadConfirmed selected).1,
      preferenceAnswer entry.1 entry.2 = some entry.2 := by
  induction selected using List.reverseRecOn with
  | nil => simp [Casing.loadConfirmed]
  | append_singleton rows row ih =>
      rw [Casing.load_concat]
      cases found : casing.readRow row with
      | none => exact ih
      | some last =>
          obtain ⟨stored_value, -, read⟩ := Option.bind_eq_some_iff.mp found
          have valid := (normalize_kept (ok_of_toOption read)).2
          intro entry member
          simp only [Dict.put] at member
          split at member
          · obtain ⟨old, before, rfl⟩ := List.mem_map.mp member
            split
            · exact valid
            · exact ih old before
          · rcases List.mem_append.mp member with before | new
            · exact ih entry before
            · exact List.mem_singleton.mp new ▸ valid

theorem mem_applied {T : Texts} {text : String} {uses : Bool} {answers saved : Dict}
    (distinct : (saved.map Prod.fst).Nodup) {entry : String × Json}
    (member : entry ∈ applyLongTermPreferences T text uses answers saved) :
    entry ∈ answers ∨ entry ∈ saved := by
  unfold applyLongTermPreferences at member
  cases uses with
  | false => exact .inl member
  | true =>
      rw [if_pos rfl, foldl_memory distinct] at member
      exact (List.mem_append.mp member).imp_right List.mem_of_mem_filter

/-- However savings, deletions and purges interleave, a request is filled in with what its user has
confirmed or what was stored before: explicit answers and what the text speaks of are left alone,
and the effective request passes the checks of a request again. -/
theorem memory_fills_in (T : Texts)
    (reached : (PreferenceTable.machine casing stored).Reachable s) (userId : Nat)
    {selected : List UserPreference}
    (query : selected.Perm (s.rows.filter fun row => row.userId = userId))
    (request : PlanRequest L) :
    ∃ effective : PlanRequest L, FillsIn T stored s userId request effective
      (casing.loadConfirmed selected).1 (casing.loadConfirmed selected).2 := by
  have table := PreferenceTable.table_kept reached
  have keys := keys_distinct table query
  have distinct := Casing.load_distinct casing selected
  generalize filled : applyLongTermPreferences T (textOf request) (usesMemory request)
    (answersOf request) (casing.loadConfirmed selected).1 = answers
  have valid : ∀ entry ∈ answers, preferenceAnswer entry.1 entry.2 = some entry.2 := by
    intro entry member
    rcases mem_applied distinct (filled ▸ member) with given | loaded
    · obtain ⟨answer, -, rfl⟩ := List.mem_map.mp given
      exact answer.property
    · exact load_valid entry loaded
  let effective : PlanRequest L := fun f =>
    match f with
    | .preferencesAnswers => answers.pmap (fun entry valid => ⟨entry, valid⟩) valid
    | f => request f
  have same : answersOf effective = answers := by
    change (answers.pmap (fun entry valid => (⟨entry, valid⟩ : PreferenceAnswer))
      valid).map Subtype.val = answers
    rw [List.map_pmap]
    exact List.pmap_eq_self.mpr fun _ _ => rfl
  refine ⟨effective, same.trans filled.symm, fun f other => ?_, fun key => ?_, ?_, ?_⟩
  · cases f <;> first | rfl | exact absurd rfl other
  · rw [same, ← filled, lookup_applied distinct]
  · intro key value holds
    obtain ⟨row, member, named, read⟩ := (Casing.lookup_load keys).mp holds
    obtain ⟨inside, user⟩ := List.mem_filter.mp (query.subset member)
    have own := of_decide_eq_true user
    rcases table.backed row inside with before | ⟨value', stored_value, entry⟩
    · exact .inr ⟨row, before, own, named⟩
    · have normal := table.normal _ entry
      rw [Casing.readRow, stored_value, Option.bind_some, normal] at read
      cases read
      exact .inl (own ▸ named ▸ entry)
  · intro row inside own newer
    have member : row ∈ selected :=
      query.symm.subset (List.mem_filter.mpr ⟨inside, decide_eq_true own⟩)
    obtain ⟨value, stored_value, entry⟩ := (table.backed row inside).resolve_left newer
    have read : casing.readRow row = some value := by
      rw [Casing.readRow, stored_value, Option.bind_some, table.normal _ entry]
      rfl
    refine ⟨stored_value ▸ (Casing.lookup_load keys).mpr ⟨row, member, rfl, read⟩, fun gone => ?_⟩
    obtain ⟨other, there, same, unread⟩ := Casing.mem_ignored.mp gone
    obtain rfl := List.inj_on_of_nodup_map keys there member same
    cases unread.symm.trans read

/-- Texts without capital letters. -/
def uncased : Casing where
  lower := id
  lower_lower _ := rfl
  lower_stripped _ stripped := stripped

/-- A row that an earlier version has left behind. -/
def oldRows : List UserPreference := [⟨3, 1, "travel_style", some (.str "wild")⟩]

/-- Two savings of one key meet, and the second of them is refused. -/
def savingScript : List PreferenceAction := [
  .save 1 "dietary_restrictions" (.array [.str " vegan", .str "vegan"]) true,
  .save 1 "dietary_restrictions" (.array [.str "halal"]) true, .commit 0 false, .commit 0 false,
  .save 1 "avoid_hiking" (.bool true) true, .commit 0 false]

theorem mountain_sized : 2 ≤ "a trip to the mountain".length ∧
    "a trip to the mountain".length ≤ 4000 := by decide

theorem memory_fills_in_mountain : ∃ s effective,
    (PreferenceTable.machine uncased oldRows).run { rows := oldRows, nextId := 4 } savingScript =
      some s ∧
    answersOf effective = [("dietary_restrictions", .array [.str "vegan"])] ∧
    FillsIn plainTexts oldRows s 1 (plainRequest ⟨_, mountain_sized⟩) effective
      [("dietary_restrictions", .array [.str "vegan"]), ("avoid_hiking", .bool true)]
      ["travel_style"] := by
  have reached : (PreferenceTable.machine uncased oldRows).Reachable
      ⟨oldRows ++ [⟨4, 1, "dietary_restrictions", some (.array [.str "vegan"])⟩,
        ⟨5, 1, "avoid_hiking", some (.bool true)⟩], 6, [],
        [(1, "dietary_restrictions", .array [.str "vegan"]), (1, "avoid_hiking", .bool true)]⟩ :=
    Machine.reachable_of_run savingScript (s := ⟨oldRows, 4, [], []⟩)
      ⟨rfl, by decide, by decide, by decide, rfl, rfl⟩ (by decide)
  obtain ⟨effective, fills⟩ := memory_fills_in plainTexts reached 1 (.refl _)
    (plainRequest ⟨_, mountain_sized⟩)
  exact ⟨_, effective, by decide, fills.applied.trans (by decide), fills⟩

end

end MapGo.Conversation
