import Mathlib

/-! Two ways to hold an arrangement of distinct items against a list of precedences, which may
repeat items and name absent ones. One reads the list from its start, item by item; the other
compares the places of the items that are present. -/
namespace MapGo.Precedence

variable {α : Type} [DecidableEq α] {places required : List α} {a b t : α}

/-- The listed items are arranged in the order of their first entries. -/
def Ranked (places required : List α) : Prop :=
  places.Pairwise fun a b => a ∈ required → b ∈ required → required.idxOf a < required.idxOf b

/-- Ahead of the first entry of a present item the list has only present items, each once. -/
def Leads (places required : List α) : Prop :=
  ∀ t ∈ places, t ∈ required → (required.take (required.idxOf t)).Nodup ∧
    ∀ item ∈ required.take (required.idxOf t), item ∈ places

/-- The entries of a present item have no other present item between them. -/
def Grouped (places required : List α) : Prop :=
  required.Pairwise fun a b => a ∈ places → b ∈ places → required.idxOf a ≤ required.idxOf b

theorem Leads.congr {others : List α} (same : ∀ item, item ∈ others ↔ item ∈ places)
    (leads : Leads places required) : Leads others required := by
  intro t present listed
  obtain ⟨once, known⟩ := leads t ((same t).mp present) listed
  exact ⟨once, fun item member => (same item).mpr (known item member)⟩

theorem Grouped.congr {others : List α} (same : ∀ item, item ∈ others ↔ item ∈ places)
    (grouped : Grouped places required) : Grouped others required :=
  grouped.imp fun ordered left right => ordered ((same _).mp left) ((same _).mp right)

/-- What holds of an earlier and a later entry, holds of the items whose first places are so. -/
theorem rel_of_idxOf_lt {items : List α} {R : α → α → Prop} (pairs : items.Pairwise R)
    (before : items.idxOf a < items.idxOf b) (inside : b ∈ items) : R a b := by
  have right := List.idxOf_lt_length_of_mem inside
  have left := before.trans right
  have related := List.pairwise_iff_getElem.mp pairs _ _ left right before
  rwa [List.getElem_idxOf left, List.getElem_idxOf right] at related

theorem idxOf_lt_of_ranked (ranked : Ranked places required) (left : a ∈ required)
    (right : b ∈ required) (inside : b ∈ places) (before : places.idxOf a < places.idxOf b) :
    required.idxOf a < required.idxOf b :=
  rel_of_idxOf_lt ranked before inside left right

/-- In an arrangement without repetitions earlier items have earlier first places. -/
theorem pairwise_idxOf (distinct : places.Nodup) :
    places.Pairwise fun a b => places.idxOf a < places.idxOf b := by
  apply List.pairwise_iff_getElem.mpr
  intro i j left right before
  rwa [distinct.idxOf_getElem i left, distinct.idxOf_getElem j right]

theorem idxOf_split {before after : List α} (fresh : t ∉ before)
    (split : required = before ++ t :: after) : required.idxOf t = before.length := by
  rw [split, List.idxOf_append_of_notMem fresh, List.idxOf_cons_self, Nat.add_zero]

/-- Comparing places: accepted arrangements are ranked, of a grouped list. -/
theorem placed_iff (distinct : places.Nodup) :
    (required.Pairwise fun a b => a ∈ places → b ∈ places → places.idxOf a ≤ places.idxOf b) ↔
      Ranked places required ∧ Grouped places required := by
  constructor
  · intro placed
    constructor
    · apply List.pairwise_iff_forall_sublist.mpr
      intro a b sub left right
      have inside : a ∈ places ∧ b ∈ places := by
        constructor
        · exact sub.subset List.mem_cons_self
        · exact sub.subset (List.mem_cons_of_mem _ List.mem_cons_self)
      have earlier := List.pairwise_iff_forall_sublist.mp (pairwise_idxOf distinct) sub
      by_contra late
      have apart : required.idxOf b ≠ required.idxOf a := fun same => by
        rw [List.idxOf_inj right] at same
        rw [same] at earlier
        exact lt_irrefl _ earlier
      have first : required.idxOf b < required.idxOf a := by omega
      have other := rel_of_idxOf_lt placed first left inside.2 inside.1
      omega
    · apply List.pairwise_iff_forall_sublist.mpr
      intro a b sub left right
      by_contra late
      have listed : a ∈ required := sub.subset List.mem_cons_self
      have behind := rel_of_idxOf_lt placed (not_le.mp late) listed right left
      have ahead := List.pairwise_iff_forall_sublist.mp placed sub left right
      have same := (List.idxOf_inj left).mp (le_antisymm ahead behind)
      exact late (le_of_eq (congrArg required.idxOf same))
  · rintro ⟨ranked, grouped⟩
    apply List.pairwise_iff_forall_sublist.mpr
    intro a b sub left right
    by_contra late
    have listed : a ∈ required ∧ b ∈ required := by
      constructor
      · exact sub.subset List.mem_cons_self
      · exact sub.subset (List.mem_cons_of_mem _ List.mem_cons_self)
    have behind := idxOf_lt_of_ranked ranked listed.2 listed.1 left (not_le.mp late)
    have ahead := List.pairwise_iff_forall_sublist.mp grouped sub left right
    omega

/-- Reading from the start: the listed items are the start of the list, where they are ranked and
nothing else stands ahead of them. -/
theorem prefix_iff (distinct : places.Nodup) :
    places.filter (· ∈ required) <+: required ↔
      Ranked places required ∧ Leads places required := by
  have once : (places.filter (· ∈ required)).Nodup := distinct.filter _
  constructor
  · rintro ⟨rest, split⟩
    constructor
    · have sorted : (places.filter (· ∈ required)).Pairwise fun a b =>
          required.idxOf a < required.idxOf b := by
        apply List.pairwise_iff_getElem.mpr
        intro i j left right before
        have place (k : Nat) (inside : k < (places.filter (· ∈ required)).length) :
            required.idxOf (places.filter (· ∈ required))[k] = k := by
          conv_lhs => arg 2; rw [← split]
          rw [List.idxOf_append_of_mem (List.getElem_mem inside), once.idxOf_getElem k inside]
        rw [place i left, place j right]
        exact before
      rw [List.pairwise_filter] at sorted
      exact sorted.imp fun ordered left right =>
        ordered (decide_eq_true left) (decide_eq_true right)
    · intro t present listed
      have member : t ∈ places.filter (· ∈ required) :=
        List.mem_filter.mpr ⟨present, decide_eq_true listed⟩
      obtain ⟨before, after, parts⟩ := List.append_of_mem member
      have fresh : t ∉ before := fun earlier => by
        rw [parts] at once
        exact (List.nodup_append.mp once).2.2 t earlier t List.mem_cons_self rfl
      have whole : required = before ++ t :: (after ++ rest) := by
        rw [← split, parts, List.append_assoc, List.cons_append]
      have ahead : required.take (required.idxOf t) = before := by
        rw [idxOf_split fresh whole, whole, List.take_left']
        rfl
      rw [ahead]
      constructor
      · rw [parts] at once
        exact (List.nodup_append.mp once).1
      · intro item earlier
        have inside : item ∈ places.filter (· ∈ required) :=
          parts ▸ List.mem_append_left _ earlier
        exact (List.mem_filter.mp inside).1
  · rintro ⟨ranked, leads⟩
    have grows : ∀ before after, places.filter (· ∈ required) = before ++ after →
        before <+: required := by
      intro before
      induction before using List.reverseRecOn with
      | nil => exact fun after _ => List.nil_prefix
      | append_singleton before t ih =>
          intro after parts
          obtain ⟨rest, split⟩ := ih (t :: after) (by rw [parts, List.append_assoc]; rfl)
          have inside : t ∈ places.filter (· ∈ required) := by
            rw [parts]
            simp
          obtain ⟨present, listed⟩ := List.mem_filter.mp inside
          have listed : t ∈ required := of_decide_eq_true listed
          have fresh : t ∉ before := fun earlier => by
            rw [parts, List.append_assoc] at once
            exact (List.nodup_append.mp once).2.2 t earlier t List.mem_cons_self rfl
          cases rest with
          | nil =>
              rw [← split, List.append_nil] at listed
              exact absurd listed fresh
          | cons next rest =>
              have same : next = t := by
                -- another item here would stand ahead of `t` and yet be arranged behind it
                by_contra other
                have place : required.idxOf t = before.length + (rest.idxOf t + 1) := by
                  rw [← split, List.idxOf_append_of_notMem fresh, List.idxOf_cons_ne _ other]
                obtain ⟨single, known⟩ := leads t present listed
                have ahead : required.take (required.idxOf t) =
                    before ++ next :: rest.take (rest.idxOf t) := by
                  rw [place, ← split, List.take_length_add_append, List.take_succ_cons]
                rw [ahead] at single known
                have unseen : next ∉ before := fun earlier =>
                  (List.nodup_append.mp single).2.2 next earlier next List.mem_cons_self rfl
                have there : next ∈ required := by
                  rw [← split]
                  simp
                have kept : next ∈ places.filter (· ∈ required) :=
                  List.mem_filter.mpr ⟨known next (by simp), decide_eq_true there⟩
                have behind : next ∈ after := by
                  rw [parts] at kept
                  simpa [unseen, other] using kept
                have arranged : [t, next].Sublist (places.filter (· ∈ required)) := by
                  rw [parts, List.append_assoc]
                  apply List.Sublist.trans _ (List.sublist_append_right before _)
                  exact (List.singleton_sublist.mpr behind).cons_cons t
                have later := List.pairwise_iff_forall_sublist.mp ranked
                  (arranged.trans List.filter_sublist) listed there
                rw [place, idxOf_split unseen split.symm] at later
                omega
              subst same
              exact ⟨rest, by rw [← split, List.append_assoc]; rfl⟩
    exact grows _ [] (List.append_nil _).symm

end MapGo.Precedence
