import MapGo.Choice
import MapGo.Route.Search

/-! The order of stops that the browser works out. Few stops are enumerated over one shared path;
for more, the nearest neighbours make a path that reversals of its segments improve in place. -/
namespace MapGo.Browser

open MapGo.Choice (FirstLeast foldl_keepLess keepLess)
open MapGo.Route (orderings orderings_complete orderings_perm)

/-- The distances between points, of which 0 is the origin. -/
abbrev Distances := Nat → Nat → ℚ

/-- The length of an open path on from a point. -/
def pathFrom (D : Distances) : Nat → List Nat → ℚ
  | _, [] => 0
  | previous, point :: rest => D previous point + pathFrom D point rest

/-- The variables that the calls of `permute` share; no `bestLen` is infinite. -/
structure Enumeration where
  cur : List Nat := []
  best : Option (List Nat) := none
  bestLen : Option ℚ := none

namespace Enumeration
variable (D : Distances) (s : Enumeration)

/-- `len`, summed along the path. -/
def len : ℚ := (s.cur.foldl (fun walk x => (walk.1 + D walk.2 x, x)) ((0 : ℚ), 0)).1

/-- A complete path is kept if it is shorter. -/
def consider : Enumeration :=
  if s.bestLen.all (s.len D < ·) then { s with best := some s.cur, bestLen := some (s.len D) }
  else s

def push (x : Nat) : Enumeration := { s with cur := s.cur ++ [x] }

def pop : Enumeration := { s with cur := s.cur.dropLast }

end Enumeration

/-- `permute(arr, cur)`; a call has fewer points left than its depth. -/
def permute (D : Distances) : Nat → List Nat → Enumeration → Enumeration
  | 0, _, s => s
  | depth + 1, arr, s =>
      if arr = [] then s.consider D
      else arr.zipIdx.foldl (fun s item =>
        (permute D depth (arr.take item.2 ++ arr.drop (item.2 + 1)) (s.push item.1)).pop) s

def solveOrderExact (D : Distances) (n : Nat) : List Nat :=
  let idx := (List.range n).map (· + 1)
  ((permute D (n + 1) idx {}).best.getD idx).map (· - 1)

/-- The length of the path from the origin through stops counted from 0. -/
def openPath (D : Distances) (order : List Nat) : ℚ := pathFrom D 0 (order.map (· + 1))

section
variable {D : Distances} {s : Enumeration} {arr : List Nat} {paths more : List (List Nat)}

theorem len_eq : s.len D = pathFrom D 0 s.cur := by
  have summed (path : List Nat) (sum : ℚ) (previous : Nat) :
      (path.foldl (fun walk x => (walk.1 + D walk.2 x, x)) (sum, previous)).1 =
        sum + pathFrom D previous path := by
    induction path generalizing sum previous with
    | nil => exact (add_zero sum).symm
    | cons x rest ih =>
        rw [List.foldl_cons, ih, pathFrom, add_assoc]
  exact (summed s.cur 0 0).trans (zero_add _)

/-- `bestLen` is the length of `best`. -/
def Enumeration.Measured (D : Distances) (s : Enumeration) : Prop :=
  s.bestLen = s.best.map (pathFrom D 0)

/-- The variables after some paths were completed, with the shared path as before. -/
def Enumeration.after (D : Distances) (s : Enumeration) (paths : List (List Nat)) :
    Enumeration where
  cur := s.cur
  best := paths.foldl (keepLess (pathFrom D 0)) s.best
  bestLen := (paths.foldl (keepLess (pathFrom D 0)) s.best).map (pathFrom D 0)

theorem Enumeration.after_measured : (s.after D paths).Measured D := rfl

theorem Enumeration.after_append : (s.after D paths).after D more = s.after D (paths ++ more) := by
  simp only [Enumeration.after, List.foldl_append]

theorem Enumeration.after_nil (measured : s.Measured D) : s.after D [] = s := by
  cases s
  exact congrArg _ measured.symm

theorem consider_eq (measured : s.Measured D) : s.consider D = s.after D [s.cur] := by
  have test : s.bestLen.all (s.len D < ·) =
      s.best.all fun old => pathFrom D 0 s.cur < pathFrom D 0 old := by
    rw [measured, len_eq]
    cases s.best <;> rfl
  simp only [Enumeration.consider, Enumeration.after, List.foldl_cons, List.foldl_nil, keepLess,
    test]
  split
  · rw [len_eq]
    rfl
  · cases s
    exact congrArg _ measured

/-- A call completes the shared path by every order of its points, and leaves it as it was. -/
theorem permute_eq {depth : Nat} (deep : arr.length < depth) (distinct : arr.Nodup)
    (measured : s.Measured D) : permute D depth arr s =
      s.after D ((orderings arr.length arr).map (s.cur ++ ·)) := by
  induction depth generalizing arr s with
  | zero => contradiction
  | succ depth ih =>
      rw [permute]
      split
      · rename_i empty
        subst empty
        rw [consider_eq measured]
        simp [orderings]
      · rename_i left
        let branch (s : Enumeration) (x : Nat) : List (List Nat) :=
          (orderings (arr.length - 1) (arr.erase x)).map fun rest => s.cur ++ x :: rest
        have turn (item : Nat × Nat) (member : item ∈ arr.zipIdx) (s : Enumeration)
            (measured : s.Measured D) :
            (permute D depth (arr.take item.2 ++ arr.drop (item.2 + 1)) (s.push item.1)).pop =
              s.after D (branch s item.1) := by
          obtain ⟨inside, same⟩ :=
            List.getElem?_eq_some_iff.mp (List.mem_zipIdx_iff_getElem?.mp member)
          have rest : arr.take item.2 ++ arr.drop (item.2 + 1) = arr.erase item.1 := by
            rw [← List.eraseIdx_eq_take_drop_succ, ← same, distinct.erase_getElem]
          have size : (arr.erase item.1).length = arr.length - 1 :=
            List.length_erase_of_mem (same ▸ List.getElem_mem inside)
          rw [rest, ih (by omega) (distinct.erase _) (s := s.push item.1) measured, size]
          simp only [Enumeration.pop, Enumeration.after, Enumeration.push, branch,
            List.dropLast_concat, List.append_assoc, List.cons_append, List.nil_append]
        have loop (items : List (Nat × Nat)) (inside : ∀ item ∈ items, item ∈ arr.zipIdx)
            (s : Enumeration) (measured : s.Measured D) : items.foldl (fun s item =>
              (permute D depth (arr.take item.2 ++ arr.drop (item.2 + 1)) (s.push item.1)).pop) s =
              s.after D (items.flatMap fun item => branch s item.1) := by
          induction items generalizing s with
          | nil => exact (Enumeration.after_nil measured).symm
          | cons item items onward =>
              rw [List.foldl_cons, turn item (inside item List.mem_cons_self) s measured,
                onward (fun other later => inside other (List.mem_cons_of_mem _ later)) _
                  Enumeration.after_measured,
                Enumeration.after_append]
              rfl
        rw [loop arr.zipIdx (fun item member => member) s measured]
        have points : arr.zipIdx.flatMap (fun item => branch s item.1) =
            arr.flatMap (branch s) := by
          conv_rhs => rw [← List.zipIdx_map_fst 0 arr, List.flatMap_map]
        obtain ⟨count, size⟩ := Nat.exists_eq_succ_of_ne_zero (mt List.length_eq_zero_iff.mp left)
        rw [points, size, orderings, List.map_flatMap]
        simp only [branch, size, Nat.succ_sub_one, List.map_map, Function.comp_def]

theorem map_succ_pred (order : List Nat) : (order.map (· + 1)).map (· - 1) = order := by
  rw [List.map_map]
  exact (List.map_congr_left fun x _ => rfl).trans (List.map_id order)

theorem map_pred_succ {order : List Nat} (positive : ∀ x ∈ order, 1 ≤ x) :
    (order.map (· - 1)).map (· + 1) = order := by
  rw [List.map_map]
  exact (List.map_congr_left fun x member => Nat.sub_add_cancel (positive x member)).trans
    (List.map_id order)

theorem lt_of_map_succ {order other : List Nat} (less : order.map (· + 1) < other.map (· + 1)) :
    order < other := by
  induction order generalizing other with
  | nil =>
      cases other with
      | nil => contradiction
      | cons y ys => exact List.nil_lt_cons y ys
  | cons x xs ih =>
      cases other with
      | nil => contradiction
      | cons y ys =>
          rw [List.map_cons, List.map_cons, List.cons_lt_cons_iff] at less
          rw [List.cons_lt_cons_iff]
          obtain first | ⟨same, rest⟩ := less
          · exact .inl (Nat.lt_of_succ_lt_succ first)
          · exact .inr ⟨Nat.succ.inj same, ih rest⟩

/-- The enumeration of ascending points is lexicographic. -/
theorem orderings_ascending {count : Nat} {items : List Nat} (ascending : items.Pairwise (· < ·)) :
    (orderings count items).Pairwise (· < ·) := by
  induction count generalizing items with
  | zero => exact List.pairwise_singleton _ _
  | succ count ih =>
      rw [orderings, List.pairwise_flatMap]
      constructor
      · intro first _
        rw [List.pairwise_map]
        refine (ih (ascending.sublist List.erase_sublist)).imp fun {rest other} less => ?_
        exact List.cons_lt_cons_iff.mpr (.inr ⟨rfl, less⟩)
      · refine ascending.imp fun {first second} less => ?_
        intro path inside other there
        obtain ⟨rest, -, rfl⟩ := List.mem_map.mp inside
        obtain ⟨more, -, rfl⟩ := List.mem_map.mp there
        exact List.cons_lt_cons_iff.mpr (.inl less)

end

/-- The exact order is the first of the shortest ones, in the order of the enumeration, which is
lexicographic. -/
theorem solveOrderExact_first_shortest (D : Distances) (n : Nat) :
    (solveOrderExact D n).Perm (List.range n) ∧ ∀ other : List Nat, other.Perm (List.range n) →
      openPath D (solveOrderExact D n) < openPath D other ∨
        (openPath D (solveOrderExact D n) = openPath D other ∧ solveOrderExact D n ≤ other) := by
  let idx := (List.range n).map (· + 1)
  have size : idx.length = n := by rw [List.length_map, List.length_range]
  have ascending : idx.Pairwise (· < ·) :=
    List.pairwise_map.mpr (List.pairwise_lt_range.imp Nat.succ_lt_succ)
  have ran : permute D (n + 1) idx {} =
      Enumeration.after D {} ((orderings idx.length idx).map ([] ++ ·)) :=
    permute_eq (by omega) (ascending.imp Nat.ne_of_lt) rfl
  have complete {path : List Nat} (perm : path.Perm idx) : path ∈ orderings n idx :=
    orderings_complete size perm
  obtain ⟨found, kept, least⟩ := @foldl_keepLess _ _ _ (pathFrom D 0) _
    (List.ne_nil_of_mem (complete (List.Perm.refl idx)))
  have solved : solveOrderExact D n = found.map (· - 1) := by
    have best : (permute D (n + 1) idx {}).best = some found := by
      rw [ran, size]
      simpa [Enumeration.after] using kept
    rw [solveOrderExact, best]
    rfl
  have perm : found.Perm idx := orderings_perm size least.mem
  have succ : (found.map (· - 1)).map (· + 1) = found := by
    refine map_pred_succ fun x member => ?_
    obtain ⟨i, -, rfl⟩ := List.mem_map.mp (perm.mem_iff.mp member)
    exact Nat.succ_pos i
  rw [solved]
  refine ⟨map_succ_pred (List.range n) ▸ perm.map _, fun other same => ?_⟩
  rw [openPath, openPath, succ]
  obtain ⟨before, after, split, first, rest⟩ := least
  have sorted : (orderings n idx).Pairwise (· < ·) := orderings_ascending ascending
  have member := complete (same.map (· + 1))
  rw [split, List.mem_append, List.mem_cons] at member
  rw [split, List.pairwise_append, List.pairwise_cons] at sorted
  obtain earlier | here | later := member
  · exact .inl (first _ earlier)
  · refine .inr ⟨congrArg _ here.symm, le_of_eq ?_⟩
    rw [← here, map_succ_pred]
  · have less : found.map (· - 1) < other := lt_of_map_succ (succ.symm ▸ sorted.2.1.1 _ later)
    obtain shorter | equal := (rest _ later).lt_or_eq
    · exact .inl shorter
    · exact .inr ⟨equal, less.le⟩

/-! ### The heuristic order -/

section
variable {Point : Type} (haversine : Point → Point → ℚ)

/-- `D` over all points. -/
def distances (all : List Point) : Distances := fun i j =>
  if i = j then 0
  else match all[i]?, all[j]? with
    | some a, some b => haversine a b
    | _, _ => 0

/-- The nearest point that is not visited, with its distance. -/
def nearest (D : Distances) (n : Nat) (visited : Nat → Bool) (cur : Nat) : Option Nat :=
  ((List.range' 1 n).foldl (fun (kept : Option Nat × Option ℚ) j =>
    if !visited j && kept.2.all (D cur j < ·) then (some j, some (D cur j)) else kept)
    (none, none)).1

/-- The route of the nearest neighbours; `none` where no point is left. -/
def nearestRoute (D : Distances) (n : Nat) : Nat → (Nat → Bool) → Nat → Option (List Nat)
  | 0, _, _ => some []
  | k + 1, visited, cur => do
      let best ← nearest D n visited cur
      let rest ← nearestRoute D n k (Function.update visited best true) best
      return best :: rest

def pathLen (D : Distances) (r : List Nat) : ℚ :=
  D 0 (r.headD 0) + ((r.zip r.tail).map fun leg => D leg.1 leg.2).sum

/-- The route with the segment from `i` to `j` reversed. -/
def reversal (route : List Nat) (i j : Nat) : List Nat :=
  route.take i ++ (((route.take (j + 1)).drop i).reverse ++ route.drop (j + 1))

/-- `1e-9` -/
def tolerance : ℚ := 1 / 1000000000

/-- A reversal that shortens the route replaces it; the flag is `improved`. -/
def tryReversal (D : Distances) (state : List Nat × Bool) (i j : Nat) : List Nat × Bool :=
  let cand := reversal state.1 i j
  if pathLen D cand + tolerance < pathLen D state.1 then (cand, true) else state

/-- One round of the loops over both ends of a segment. -/
def improveRound (D : Distances) (route : List Nat) : List Nat × Bool :=
  (List.range (route.length - 1)).foldl (fun state i =>
    (List.range' (i + 1) (route.length - (i + 1))).foldl (fun state j => tryReversal D state i j)
      state) (route, false)

/-- The rounds while the route improves; the flag is `improved` at the end. -/
def improve (D : Distances) : Nat → List Nat → List Nat × Bool
  | 0, route => (route, true)
  | guard + 1, route =>
      let (after, improved) := improveRound D route
      if improved then improve D guard after else (after, false)

def roundLimit : Nat := 200

def firstRoute (D : Distances) (n : Nat) : Option (List Nat) :=
  nearestRoute D n n (Function.update (fun _ => false) 0 true) 0

def solveOrder (origin : Point) (points : List Point) : Option (List Nat) :=
  let n := points.length
  if n ≤ 1 then some (List.range n)
  else do
    let D := distances haversine (origin :: points)
    let route ← firstRoute D n
    return (improve D roundLimit route).1.map (· - 1)

end

/-- Each next point is the first of the nearest among those that are left. -/
inductive Greedy (D : Distances) : Nat → List Nat → List Nat → Prop where
  | nil (cur : Nat) : Greedy D cur [] []
  | cons {cur best : Nat} {left route : List Nat} (nearest : FirstLeast (D cur) left best)
      (rest : Greedy D best (left.erase best) route) : Greedy D cur left (best :: route)

/-- Reversing the segment makes the route shorter by more than the tolerance. -/
def Shortens (D : Distances) (route : List Nat) (i j : Nat) : Prop :=
  pathFrom D 0 (reversal route i j) + tolerance < pathFrom D 0 route

section
variable {D : Distances} {n cur : Nat} {visited : Nat → Bool} {route : List Nat}
  {state : List Nat × Bool} {i j : Nat}

theorem Greedy.perm {left : List Nat} (greedy : Greedy D cur left route) : route.Perm left := by
  induction greedy with
  | nil => exact .nil
  | cons nearest rest ih => exact (ih.cons _).trans (List.perm_cons_erase nearest.mem).symm

/-- The points that are not visited. -/
def unvisited (n : Nat) (visited : Nat → Bool) : List Nat :=
  (List.range' 1 n).filter fun j => !visited j

theorem nearest_eq : nearest D n visited cur =
    (unvisited n visited).foldl (keepLess (D cur)) none := by
  have loop (points : List Nat) (kept : Option Nat) : (points.foldl
      (fun (kept : Option Nat × Option ℚ) j =>
        if !visited j && kept.2.all (D cur j < ·) then (some j, some (D cur j)) else kept)
      (kept, kept.map (D cur))).1 =
        (points.filter fun j => !visited j).foldl (keepLess (D cur)) kept := by
    induction points generalizing kept with
    | nil => rfl
    | cons j points ih =>
        rw [List.foldl_cons, Option.all_map]
        cases seen : visited j with
        | true =>
            rw [List.filter_cons_of_neg (by simp [seen])]
            exact ih kept
        | false =>
            rw [List.filter_cons_of_pos (by simp [seen]), List.foldl_cons, ← ih, keepLess]
            simp only [Bool.not_false, Bool.true_and]
            split <;> rfl
  exact loop (List.range' 1 n) none

theorem unvisited_update (best : Nat) :
    unvisited n (Function.update visited best true) = (unvisited n visited).erase best := by
  have distinct : (unvisited n visited).Nodup := List.Nodup.filter _ List.nodup_range'
  rw [distinct.erase_eq_filter, unvisited, unvisited, List.filter_filter]
  refine List.filter_congr fun j _ => ?_
  by_cases same : j = best
  · simp [same]
  · simp [same]

/-- The first route takes a nearest point again and again. -/
theorem nearestRoute_greedy {k : Nat} (size : (unvisited n visited).length = k) :
    ∃ route, nearestRoute D n k visited cur = some route ∧
      Greedy D cur (unvisited n visited) route := by
  induction k generalizing visited cur with
  | zero =>
      rw [List.eq_nil_of_length_eq_zero size]
      exact ⟨[], rfl, .nil cur⟩
  | succ k ih =>
      obtain ⟨best, kept, least⟩ := @foldl_keepLess _ _ _ (D cur) _
        (List.ne_nil_of_length_eq_add_one size)
      have fewer : (unvisited n (Function.update visited best true)).length = k := by
        rw [unvisited_update, List.length_erase_of_mem least.mem, size]
        rfl
      obtain ⟨rest, found, onward⟩ := @ih best _ fewer
      rw [unvisited_update] at onward
      refine ⟨best :: rest, ?_, .cons least onward⟩
      simp only [nearestRoute, nearest_eq, kept, found, bind, Option.bind_some, pure]

theorem firstRoute_greedy (D : Distances) (n : Nat) :
    ∃ start, firstRoute D n = some start ∧ Greedy D 0 (List.range' 1 n) start := by
  have all : unvisited n (Function.update (fun _ => false) 0 true) = List.range' 1 n := by
    refine List.filter_eq_self.mpr fun j member => ?_
    have positive := (List.mem_range'_1.mp member).1
    simp [Function.update_of_ne (Nat.ne_of_gt positive)]
  rw [← all]
  exact nearestRoute_greedy (by rw [all, List.length_range'])

theorem pathLen_eq (present : route ≠ []) : pathLen D route = pathFrom D 0 route := by
  have along (previous : Nat) (rest : List Nat) :
      (((previous :: rest).zip rest).map fun leg => D leg.1 leg.2).sum =
        pathFrom D previous rest := by
    induction rest generalizing previous with
    | nil => rfl
    | cons point rest ih =>
        rw [List.zip_cons_cons, List.map_cons, List.sum_cons, ih, pathFrom]
  cases route with
  | nil => contradiction
  | cons first rest => exact congrArg (D 0 first + ·) (along first rest)

theorem reversal_perm (ordered : i < j) : (reversal route i j).Perm route := by
  have parts : route.take i ++ ((route.take (j + 1)).drop i ++ route.drop (j + 1)) = route := by
    have front : (route.take (j + 1)).take i = route.take i := by
      rw [List.take_take, min_eq_left (by omega)]
    rw [← List.append_assoc, ← front, List.take_append_drop, List.take_append_drop]
  conv_rhs => rw [← parts]
  exact ((List.reverse_perm _).append_right _).append_left _

/-- The segments of the loops, in their order. -/
def segments (n : Nat) : List (Nat × Nat) :=
  (List.range (n - 1)).flatMap fun i => (List.range' (i + 1) (n - (i + 1))).map (i, ·)

theorem mem_segments : (i, j) ∈ segments n ↔ i < j ∧ j < n := by
  simp only [segments, List.mem_flatMap, List.mem_map, List.mem_range, List.mem_range'_1,
    Prod.mk.injEq]
  constructor
  · rintro ⟨_, _, _, bounds, rfl, rfl⟩
    omega
  · rintro ⟨ordered, bound⟩
    exact ⟨i, by omega, j, by omega, rfl, rfl⟩

theorem improveRound_eq (D : Distances) (route : List Nat) : improveRound D route =
    (segments route.length).foldl (fun state segment => tryReversal D state segment.1 segment.2)
      (route, false) := by
  simp only [improveRound, segments, List.foldl_flatMap, List.foldl_map]

/-- What some rounds or turns make of a route: the same points, on a path that is no longer, and
where none of the segments was reversed, the same route with none that shortens it. -/
structure Improves (D : Distances) (segments : List (Nat × Nat)) (before after : List Nat × Bool) :
    Prop where
  perm : after.1.Perm before.1
  shorter : pathFrom D 0 after.1 ≤ pathFrom D 0 before.1
  settled : after.2 = false → before.2 = false ∧ after.1 = before.1 ∧
    ∀ segment ∈ segments, ¬ Shortens D before.1 segment.1 segment.2

theorem tryReversal_improves (present : state.1 ≠ []) (ordered : i < j) :
    Improves D [(i, j)] state (tryReversal D state i j) := by
  have perm : (reversal state.1 i j).Perm state.1 := reversal_perm ordered
  have stays : reversal state.1 i j ≠ [] := fun empty => present (List.nil_perm.mp (empty ▸ perm))
  have gain : (0 : ℚ) ≤ tolerance := by norm_num [tolerance]
  rw [tryReversal, pathLen_eq present, pathLen_eq stays]
  split
  · rename_i shortens
    exact ⟨perm, by linarith, fun unchanged => absurd unchanged (by simp)⟩
  · rename_i long
    refine ⟨.refl _, le_rfl, fun calm => ⟨calm, rfl, fun segment member => ?_⟩⟩
    exact List.mem_singleton.mp member ▸ long

theorem turns_improve (turns : List (Nat × Nat))
    (ordered : ∀ segment ∈ turns, segment.1 < segment.2) (present : state.1 ≠ []) : Improves D turns state
      (turns.foldl (fun state segment => tryReversal D state segment.1 segment.2) state) := by
  induction turns generalizing state with
  | nil => exact ⟨.refl _, le_rfl, fun calm => ⟨calm, rfl, by simp⟩⟩
  | cons segment turns ih =>
      have first := tryReversal_improves (D := D) present (ordered segment List.mem_cons_self)
      have onward : (tryReversal D state segment.1 segment.2).1 ≠ [] :=
        fun empty => present (List.nil_perm.mp (empty ▸ first.perm))
      have rest := ih (fun other later => ordered other (List.mem_cons_of_mem _ later)) onward
      refine ⟨rest.perm.trans first.perm, rest.shorter.trans first.shorter, fun calm => ?_⟩
      obtain ⟨before, same, quiet⟩ := rest.settled calm
      obtain ⟨started, unchanged, here⟩ := first.settled before
      refine ⟨started, same.trans unchanged, List.forall_mem_cons.mpr ⟨?_, ?_⟩⟩
      · exact here segment List.mem_cons_self
      · exact unchanged ▸ quiet

theorem improveRound_improves (present : route ≠ []) :
    Improves D (segments route.length) (route, false) (improveRound D route) := by
  rw [improveRound_eq]
  exact turns_improve _ (fun segment member => (mem_segments.mp member).1) present

/-- The rounds keep the points and lengthen nothing; where the last one changed nothing, no
reversal of a segment shortens the route. -/
theorem improve_spec (rounds : Nat) (present : route ≠ []) :
    (improve D rounds route).1.Perm route ∧
      pathFrom D 0 (improve D rounds route).1 ≤ pathFrom D 0 route ∧
      ((improve D rounds route).2 = false → ∀ i j, i < j → j < route.length →
        ¬ Shortens D (improve D rounds route).1 i j) := by
  induction rounds generalizing route with
  | zero => exact ⟨.refl _, le_rfl, fun calm => absurd calm (by simp [improve])⟩
  | succ rounds ih =>
      have round := improveRound_improves (D := D) present
      rw [improve]
      generalize improveRound D route = reached at round
      obtain ⟨after, improved⟩ := reached
      cases improved with
      | true =>
          obtain ⟨perm, shorter, settled⟩ :=
            ih fun empty => present (List.nil_perm.mp (empty ▸ round.perm))
          refine ⟨perm.trans round.perm, shorter.trans round.shorter, ?_⟩
          intro calm i j ordered bound
          exact settled calm i j ordered (bound.trans_eq round.perm.length_eq.symm)
      | false =>
          obtain ⟨-, same, quiet⟩ := round.settled rfl
          refine ⟨round.perm, round.shorter, fun _ i j ordered bound => ?_⟩
          exact same ▸ quiet (i, j) (mem_segments.mpr ⟨ordered, bound⟩)

end

/-- The heuristic order visits every stop once on a path no longer than that of the nearest
neighbours; where it stops before the limit of the rounds, no reversal shortens it further. -/
theorem solveOrder_improves {Point : Type} (haversine : Point → Point → ℚ) (origin : Point)
    (points : List Point) : ∃ start order,
      Greedy (distances haversine (origin :: points)) 0 (List.range' 1 points.length) start ∧
      solveOrder haversine origin points = some order ∧ order.Perm (List.range points.length) ∧
      openPath (distances haversine (origin :: points)) order ≤
        pathFrom (distances haversine (origin :: points)) 0 start ∧
      ((improve (distances haversine (origin :: points)) roundLimit start).2 = false →
        ∀ i j, i < j → j < points.length →
          ¬ Shortens (distances haversine (origin :: points)) (order.map (· + 1)) i j) := by
  generalize same : distances haversine (origin :: points) = D
  obtain ⟨start, found, greedy⟩ := firstRoute_greedy D points.length
  have stops : List.range' 1 points.length = (List.range points.length).map (· + 1) := by
    rw [List.range'_eq_map_range]
    exact List.map_congr_left fun i _ => add_comm 1 i
  have perm := stops ▸ greedy.perm
  have back {route : List Nat} (same : route.Perm start) :
      (route.map (· - 1)).Perm (List.range points.length) ∧
        (route.map (· - 1)).map (· + 1) = route := by
    refine ⟨map_succ_pred (List.range points.length) ▸ (same.trans perm).map _, ?_⟩
    refine map_pred_succ fun x member => ?_
    obtain ⟨i, -, rfl⟩ := List.mem_map.mp ((same.trans perm).mem_iff.mp member)
    exact Nat.succ_pos i
  by_cases few : points.length ≤ 1
  · -- One stop has one path, and there is no segment.
    have path : (List.range points.length).map (· + 1) = start := by
      obtain none | one := Nat.le_one_iff_eq_zero_or_eq_one.mp few
      · rw [none] at perm ⊢
        exact perm.symm.nil_eq
      · rw [one] at perm ⊢
        exact (List.perm_singleton.mp perm).symm
    refine ⟨start, _, greedy, by rw [solveOrder, if_pos few], .refl _, ?_, ?_⟩
    · rw [openPath, path]
    · intro _ i j ordered bound
      omega
  · have present : start ≠ [] := by
      rintro rfl
      have size := perm.length_eq
      simp at size
      omega
    obtain ⟨kept, shorter, settled⟩ := improve_spec (D := D) roundLimit present
    obtain ⟨order, path⟩ := back kept
    have answered : solveOrder haversine origin points =
        some ((improve D roundLimit start).1.map (· - 1)) := by
      rw [solveOrder, if_neg few, same]
      simp only [found, bind, Option.bind_some, pure]
    refine ⟨start, _, greedy, answered, order, ?_, ?_⟩
    · rw [openPath, path]
      exact shorter
    · rw [path]
      intro calm i j ordered bound
      refine settled calm i j ordered ?_
      rwa [perm.length_eq, List.length_map, List.length_range]

end MapGo.Browser
