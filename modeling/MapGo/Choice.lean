import Mathlib.Data.List.Induction
import Mathlib.Data.List.Pairwise
import Mathlib.Data.List.Sort
import Mathlib.Order.Lattice
import Mathlib.Tactic.Common

/-! Choosing from a list: the element at a rank of the sorted list, with the number of elements up
to it, the element that a search keeps which replaces only by what costs less, and the first elements
of a list that is sorted by a comparison. -/
namespace MapGo.Choice

section
variable {α : Type} [LinearOrder α] {items : List α} {item other : α} {k : Nat}

/-- The element at a rank of the sorted list, counted from 0. -/
def atRank (items : List α) (k : Nat) : Option α := (items.insertionSort (· ≤ ·))[k]?

theorem atRank_isSome (inside : k < items.length) : ∃ item, atRank items k = some item :=
  ⟨_, List.getElem?_eq_getElem (by rwa [List.length_insertionSort])⟩

theorem atRank_mem (ranked : atRank items k = some item) : item ∈ items :=
  (List.perm_insertionSort _ _).mem_iff.mp (List.mem_of_getElem? ranked)

theorem countP_insertionSort (p : α → Bool) :
    (items.insertionSort (· ≤ ·)).countP p = items.countP p :=
  (List.perm_insertionSort _ _).countP_eq p

/-- The element at a rank is the least one with more elements up to it than the rank. -/
theorem atRank_le_iff (ranked : atRank items k = some item) :
    item ≤ other ↔ k < items.countP (· ≤ other) := by
  obtain ⟨inside, rfl⟩ := List.getElem?_eq_some_iff.mp ranked
  have sorted := List.pairwise_insertionSort (· ≤ ·) items
  rw [← countP_insertionSort]
  generalize items.insertionSort (· ≤ ·) = ascending at *
  have rises {i j : Nat} (le : i ≤ j) (bound : j < ascending.length) :
      ascending[i] ≤ ascending[j] :=
    sorted.rel_get_of_le (a := ⟨i, le.trans_lt bound⟩) (b := ⟨j, bound⟩) (Fin.mk_le_mk.mpr le)
  constructor
  · intro above
    have all : (ascending.take (k + 1)).countP (· ≤ other) = (ascending.take (k + 1)).length := by
      rw [List.countP_eq_length]
      intro below member
      obtain ⟨i, bound, rfl⟩ := List.mem_iff_getElem.mp member
      rw [List.length_take] at bound
      rw [List.getElem_take, decide_eq_true_eq]
      exact (rises (by omega) inside).trans above
    have least := (List.take_sublist (k + 1) ascending).countP_le (p := fun below => below ≤ other)
    rw [List.length_take] at all
    omega
  · intro many
    by_contra less
    have none : (ascending.drop k).countP (· ≤ other) = 0 := by
      rw [List.countP_eq_zero]
      intro later member
      obtain ⟨i, bound, rfl⟩ := List.mem_iff_getElem.mp member
      rw [List.length_drop] at bound
      rw [List.getElem_drop, decide_eq_true_eq, not_le]
      exact (not_le.mp less).trans_le (rises (by omega) (by omega))
    have few : (ascending.take k).countP (· ≤ other) ≤ k :=
      List.countP_le_length.trans (List.length_take_le _ _)
    rw [← List.take_append_drop k ascending, List.countP_append, none] at many
    omega

end

section
variable {α β : Type} [LinearOrder β] {cost : α → β} {items : List α} {found : α}

/-- One comparison of the search. -/
def keepLess (cost : α → β) (kept : Option α) (item : α) : Option α :=
  if kept.all (fun old => cost item < cost old) then some item else kept

/-- The element costs least, and less than all before it. -/
def FirstLeast (cost : α → β) (items : List α) (found : α) : Prop :=
  ∃ before after, items = before ++ found :: after ∧ (∀ item ∈ before, cost found < cost item) ∧
    ∀ item ∈ after, cost found ≤ cost item

theorem FirstLeast.mem (least : FirstLeast cost items found) : found ∈ items := by
  obtain ⟨before, after, rfl, -⟩ := least
  simp

theorem FirstLeast.le (least : FirstLeast cost items found) :
    ∀ item ∈ items, cost found ≤ cost item := by
  obtain ⟨before, after, rfl, first, rest⟩ := least
  intro item member
  rw [List.mem_append, List.mem_cons] at member
  obtain earlier | rfl | later := member
  · exact (first item earlier).le
  · exact le_rfl
  · exact rest item later

theorem FirstLeast.concat {item : α} (least : FirstLeast cost items found) :
    ∃ kept, keepLess cost (some found) item = some kept ∧
      FirstLeast cost (items ++ [item]) kept := by
  by_cases less : cost item < cost found
  · refine ⟨item, by simp [keepLess, less], items, [], rfl, ?_, by simp⟩
    exact fun other member => less.trans_le (least.le other member)
  · obtain ⟨before, after, rfl, first, rest⟩ := least
    refine ⟨found, by simp [keepLess, less], before, after ++ [item], by simp, first, ?_⟩
    intro other member
    obtain later | last := List.mem_append.mp member
    · exact rest other later
    · exact List.mem_singleton.mp last ▸ not_lt.mp less

/-- The search over a list with an element keeps the first least. -/
theorem foldl_keepLess (present : items ≠ []) :
    ∃ found, items.foldl (keepLess cost) none = some found ∧ FirstLeast cost items found := by
  induction items using List.reverseRec with
  | nil => contradiction
  | append_singleton rest item ih =>
      rw [List.foldl_append]
      by_cases empty : rest = []
      · subst empty
        exact ⟨item, rfl, [], [], rfl, by simp, by simp⟩
      · obtain ⟨kept, ran, least⟩ := ih empty
        rw [ran]
        exact least.concat

end

section
variable {α β : Type} {less : α → α → Bool} {k : Nat} {items : List α} {item other : α}

/-- The first elements of the list sorted by a comparison, equal ones in their order. -/
def best (less : α → α → Bool) (k : Nat) (items : List α) : List α :=
  (items.insertionSort fun a b => less b a = false).take k

theorem mem_of_best (member : item ∈ best less k items) : item ∈ items :=
  (List.perm_insertionSort _ _).mem_iff.mp (List.mem_of_mem_take member)

theorem length_best : (best less k items).length ≤ k := List.length_take_le _ _

theorem best_distinct {key : α → β} (distinct : (items.map key).Nodup) :
    ((best less k items).map key).Nodup :=
  (((List.perm_insertionSort _ _).map key).nodup_iff.mpr distinct).sublist
    ((List.take_sublist _ _).map key)

/-- No element is left out while there is room. -/
theorem best_full (member : item ∈ items) (left : item ∉ best less k items) :
    (best less k items).length = k := by
  by_contra room
  have short : (items.insertionSort fun a b => less b a = false).length ≤ k := by
    by_contra long
    exact room (List.length_take_of_le (by omega))
  rw [best, List.take_of_length_le short] at left
  exact left ((List.perm_insertionSort _ _).mem_iff.mpr member)

variable [LinearOrder β] {rank : α → β}

/-- The whole list in the order of a rank that agrees with the comparison on it. -/
theorem sorted_of_rank
    (agrees : ∀ a ∈ items, ∀ b ∈ items, less b a = false ↔ rank a ≤ rank b) :
    (items.insertionSort fun a b => less b a = false).Pairwise fun a b => rank a ≤ rank b := by
  have mapped := List.map_insertionSort (fun a b => less b a = false) (· ≤ ·) rank items agrees
  have sorted := List.pairwise_insertionSort (· ≤ ·) (items.map rank)
  rw [← mapped, List.pairwise_map] at sorted
  exact sorted

/-- Elements of different ranks stand in a strict order. -/
theorem sorted_strictly
    (agrees : ∀ a ∈ items, ∀ b ∈ items, less b a = false ↔ rank a ≤ rank b)
    (distinct : (items.map rank).Nodup) :
    (items.insertionSort fun a b => less b a = false).Pairwise fun a b => rank a < rank b := by
  have apart := ((List.perm_insertionSort (fun a b => less b a = false) items).map
    rank).nodup_iff.mpr distinct
  exact ((sorted_of_rank agrees).and (List.pairwise_map.mp apart)).imp fun both =>
    lt_of_le_of_ne both.1 both.2

theorem best_sorted (agrees : ∀ a ∈ items, ∀ b ∈ items, less b a = false ↔ rank a ≤ rank b) :
    (best less k items).Pairwise fun a b => rank a ≤ rank b :=
  (sorted_of_rank agrees).sublist (List.take_sublist _ _)

/-- What is left out ranks no better than what is taken. -/
theorem best_le (agrees : ∀ a ∈ items, ∀ b ∈ items, less b a = false ↔ rank a ≤ rank b)
    (member : item ∈ items) (left : item ∉ best less k items)
    (taken : other ∈ best less k items) : rank other ≤ rank item := by
  have sorted := sorted_of_rank agrees
  have whole := (List.perm_insertionSort (fun a b => less b a = false) items).mem_iff.mpr member
  rw [← List.take_append_drop k (items.insertionSort _)] at sorted whole
  rcases List.mem_append.mp whole with inside | later
  · exact absurd inside left
  · exact (List.pairwise_append.mp sorted).2.2 other taken item later

end

end MapGo.Choice
