import Mathlib

/-! Edits of a list one at a time: entries addressed by the first occurrence of
their key, and moves between positions. Edits that describe one simultaneous
change have its effect as long as no edit touches a key that a later one needs. -/
namespace MapGo.ListEdit

variable {α κ ρ : Type} [DecidableEq κ]

/-- Position of the first entry with a key. -/
def position (key : α → κ) (k : κ) (xs : List α) : Option Nat :=
  xs.findIdx? fun x => key x = k

def removeFirst (key : α → κ) (k : κ) (xs : List α) : Option (List α) :=
  (position key k xs).map xs.eraseIdx

def replaceFirst (key : α → κ) (k : κ) (edit : α → α) (xs : List α) : Option (List α) :=
  (position key k xs).map fun i => xs.modify i edit

/-- Takes the entry at `source` out and puts it back at `target`. -/
def moveTo (xs : List α) (source target : Nat) : List α :=
  match xs[source]? with
  | some x => (xs.eraseIdx source).insertIdx target x
  | none => xs

/-- The moves that bring the keys of `order` to the positions from `target` on. -/
def arrange (target : Nat) (working : List κ) : List κ → List (Nat × Nat)
  | [] => []
  | k :: order =>
      let source := working.idxOf k
      if source = target then arrange (target + 1) working order
      else (source, target) :: arrange (target + 1) (moveTo working source target) order

def applyMoves (xs : List α) (moves : List (Nat × Nat)) : List α :=
  moves.foldl (fun xs move => moveTo xs move.1 move.2) xs

section Position

variable {key : α → κ} {k : κ} {x : α} {before after : List α}

theorem position_split (fresh : ∀ y ∈ before, key y ≠ k) (found : key x = k) :
    position key k (before ++ x :: after) = some before.length := by
  have passed : List.findIdx? (fun y => decide (key y = k)) before = none := by
    simpa [List.findIdx?_eq_none_iff] using fresh
  simp [position, List.findIdx?_append, passed, List.findIdx?_cons, found]

theorem position_in (key : α → κ) (k : κ) (before after : List α)
    (found : ∃ y ∈ before, key y = k) :
    ∃ i, position key k (before ++ after) = some i ∧ i < before.length := by
  have occurs : (before.findIdx? fun y => key y = k).isSome = true := by
    simpa [List.findIdx?_isSome] using found
  obtain ⟨i, here⟩ := Option.isSome_iff_exists.mp occurs
  refine ⟨i, ?_, (List.findIdx?_eq_some_iff_findIdx_eq.mp here).1⟩
  simp [position, List.findIdx?_append, here]

theorem removeFirst_split (fresh : ∀ y ∈ before, key y ≠ k) (found : key x = k) :
    removeFirst key k (before ++ x :: after) = some (before ++ after) := by
  simp [removeFirst, position_split fresh found, List.eraseIdx_append_of_length_le]

theorem modify_split (edit : α → α) (before after : List α) (x : α) :
    (before ++ x :: after).modify before.length edit = before ++ edit x :: after := by
  induction before with
  | nil => rfl
  | cons y before ih => simp [ih]

theorem insertIdx_split (before after : List α) (x : α) :
    (before ++ after).insertIdx before.length x = before ++ x :: after := by
  induction before with
  | nil => rfl
  | cons y before ih => simp [ih]

theorem replaceFirst_split {edit : α → α} (fresh : ∀ y ∈ before, key y ≠ k) (found : key x = k) :
    replaceFirst key k edit (before ++ x :: after) = some (before ++ edit x :: after) := by
  simp [replaceFirst, position_split fresh found, modify_split]

/-- An edit keeps every attribute of the entries that the replacement keeps. -/
theorem replaceFirst_map {edit : α → α} {f : α → ρ} (kept : ∀ x, f (edit x) = f x)
    {xs ys : List α} (replaced : replaceFirst key k edit xs = some ys) :
    ys.map f = xs.map f := by
  simp only [replaceFirst, Option.map_eq_some_iff] at replaced
  obtain ⟨i, -, rfl⟩ := replaced
  refine List.ext_getElem? fun j => ?_
  rw [List.getElem?_map, List.getElem?_map, List.getElem?_modify]
  split <;> cases xs[j]? <;> simp [kept]

/-- An edit for another key leaves an entry alone. -/
theorem replaceFirst_getElem? {edit : α → α} {xs ys : List α} {i : Nat} (here : xs[i]? = some x)
    (other : key x ≠ k) (replaced : replaceFirst key k edit xs = some ys) :
    ys[i]? = some x := by
  simp only [replaceFirst, Option.map_eq_some_iff] at replaced
  obtain ⟨j, found, rfl⟩ := replaced
  have apart : j ≠ i := by
    rintro rfl
    obtain ⟨inside, same, -⟩ := List.findIdx?_eq_some_iff_getElem.mp found
    obtain ⟨_, entry⟩ := List.getElem?_eq_some_iff.mp here
    rw [entry] at same
    exact other (by simpa using same)
  simp [apart, here]

end Position

/-! ### Removal -/

/-- Removing the entries of a family of keys one by one leaves the others. -/
theorem removeEach (key : α → κ) (gone : κ → Bool) (xs kept : List α)
    (clean : ∀ x ∈ kept, gone (key x) = false) :
    ((xs.filter fun x => gone (key x)).map key).foldlM (fun ys k => removeFirst key k ys)
      (kept ++ xs) = some (kept ++ xs.filter fun x => !gone (key x)) := by
  induction xs generalizing kept with
  | nil => simp
  | cons x xs ih =>
      cases drops : gone (key x) with
      | true =>
          have fresh : ∀ y ∈ kept, key y ≠ key x := by
            intro y inside same
            have stays := clean y inside
            rw [same, drops] at stays
            contradiction
          simp only [List.filter_cons, drops, ↓reduceIte, List.map_cons, List.foldlM_cons,
            removeFirst_split fresh rfl, bind, Option.bind_some]
          exact ih kept clean
      | false =>
          have grown : ∀ y ∈ kept ++ [x], gone (key y) = false := by
            intro y inside
            obtain old | new := List.mem_append.mp inside
            · exact clean y old
            · rwa [List.mem_singleton.mp new]
          have moved := ih (kept ++ [x]) grown
          simpa [List.filter_cons, drops] using moved

/-! ### Replacement -/

/-- One replacement after the other, each addressed by the key the row had before. -/
def replaceEach (key : α → κ) (old : ρ → α) (edit : ρ → α → α) (rows : List ρ)
    (xs : List α) : Option (List α) :=
  rows.foldlM (fun ys row => replaceFirst key (key (old row)) (edit row) ys) xs

section Replacement

variable {key : α → κ} {old new : ρ → α} {edit : ρ → α → α} {changed : ρ → Bool}

theorem replaceEach_getElem? {rows : List ρ} {xs ys : List α} {i : Nat} {x : α}
    (here : xs[i]? = some x) (other : ∀ row ∈ rows, key x ≠ key (old row))
    (replaced : replaceEach key old edit rows xs = some ys) : ys[i]? = some x := by
  induction rows generalizing xs with
  | nil =>
      cases Option.some.inj replaced
      exact here
  | cons row rows ih =>
      simp only [replaceEach, List.foldlM_cons, bind, Option.bind_eq_some_iff] at replaced
      obtain ⟨middle, first, rest⟩ := replaced
      exact ih (replaceFirst_getElem? here (other row List.mem_cons_self) first)
        (fun row inside => other row (List.mem_cons_of_mem _ inside)) rest

theorem replaceEach_map {σ : Type} {f : α → σ} (kept : ∀ row x, f (edit row x) = f x) {rows : List ρ}
    {xs ys : List α} (replaced : replaceEach key old edit rows xs = some ys) :
    ys.map f = xs.map f := by
  induction rows generalizing xs with
  | nil =>
      cases Option.some.inj replaced
      rfl
  | cons row rows ih =>
      simp only [replaceEach, List.foldlM_cons, bind, Option.bind_eq_some_iff] at replaced
      obtain ⟨middle, first, rest⟩ := replaced
      exact (ih rest).trans (replaceFirst_map (kept row) first)

/-- A later row still needs a key that an earlier row has taken. -/
def Clash (key : α → κ) (old new : ρ → α) (changed : ρ → Bool) (earlier later : ρ) : Prop :=
  changed later = true ∧ key (new earlier) = key (old later)

/-- Replacements in the order of the rows have the effect of the simultaneous change as long as
no row takes a key that a later one needs. -/
theorem replaceEach_of_no_clash
    (settles : ∀ row, changed row = true → edit row (old row) = new row)
    (keeps : ∀ row, changed row = false → new row = old row) {rows : List ρ} (done : List α)
    (clear : ∀ row ∈ rows, changed row = true → ∀ x ∈ done, key x ≠ key (old row))
    (apart : rows.Pairwise fun row later => ¬ Clash key old new changed row later) :
    replaceEach key old edit (rows.filter changed) (done ++ rows.map old) =
      some (done ++ rows.map new) := by
  induction rows generalizing done with
  | nil => simp [replaceEach]
  | cons row rows ih =>
      obtain ⟨head, tail⟩ := List.pairwise_cons.mp apart
      have further : ∀ later ∈ rows, changed later = true →
          ∀ x ∈ done ++ [new row], key x ≠ key (old later) := by
        intro later inside change x present
        obtain before | here := List.mem_append.mp present
        · exact clear later (List.mem_cons_of_mem _ inside) change x before
        · rw [List.mem_singleton.mp here]
          exact fun same => head later inside ⟨change, same⟩
      have rest := ih (done ++ [new row]) further tail
      cases change : changed row with
      | true =>
          have fresh := clear row List.mem_cons_self change
          simp only [replaceEach, List.filter_cons, change, ↓reduceIte, List.foldlM_cons,
            List.map_cons, replaceFirst_split fresh rfl, settles row change, bind,
            Option.bind_some]
          simpa [replaceEach] using rest
      | false =>
          simpa [change, keeps row change, List.filter_cons] using rest

/-- Where a row takes a key that a later one needs, the later row keeps its old entry. -/
theorem no_clash_of_replaceEach (settles : ∀ row, changed row = true → edit row (old row) = new row)
    (keeps : ∀ row, changed row = false → new row = old row) {rows : List ρ} {done ys : List α}
    (renames : ∀ row ∈ rows, changed row = true → key (new row) ≠ key (old row))
    (distinct : (rows.map fun row => key (old row)).Nodup)
    (replaced : replaceEach key old edit (rows.filter changed) (done ++ rows.map old) = some ys)
    (keys : ys.map key = (done ++ rows.map new).map key) :
    (∀ row ∈ rows, changed row = true → ∀ x ∈ done, key x ≠ key (old row)) ∧
      rows.Pairwise fun row later => ¬ Clash key old new changed row later := by
  induction rows generalizing done with
  | nil => exact ⟨by simp, .nil⟩
  | cons row rows ih =>
      obtain ⟨single, distinct⟩ := List.nodup_cons.mp distinct
      have others : ∀ later ∈ rows.filter changed, key (old row) ≠ key (old later) :=
        fun later inside same =>
          single (List.mem_map.mpr ⟨later, List.mem_of_mem_filter inside, same.symm⟩)
      have fresh : changed row = true → ∀ x ∈ done, key x ≠ key (old row) := by
        intro change x present same
        -- the edit lands on an earlier entry, so this one is never edited
        simp only [replaceEach, List.filter_cons, change, ↓reduceIte, List.foldlM_cons, bind,
          Option.bind_eq_some_iff] at replaced
        obtain ⟨middle, first, rest⟩ := replaced
        simp only [replaceFirst, Option.map_eq_some_iff] at first
        obtain ⟨i, found, rfl⟩ := first
        obtain ⟨j, at', early⟩ := position_in key (key (old row)) done ((row :: rows).map old)
          ⟨x, present, same⟩
        obtain rfl : i = j := Option.some.inj (found.symm.trans at')
        have stuck : ((done ++ (row :: rows).map old).modify i (edit row))[done.length]? =
            some (old row) := by
          simp [Nat.ne_of_lt early]
        have final := replaceEach_getElem? stuck others rest
        have wanted : (ys.map key)[done.length]? = some (key (new row)) := by
          rw [keys]
          simp
        rw [List.getElem?_map, final, Option.map_some] at wanted
        exact renames row List.mem_cons_self change (Option.some.inj wanted).symm
      have moved : replaceEach key old edit (rows.filter changed)
          ((done ++ [new row]) ++ rows.map old) = some ys := by
        cases change : changed row with
        | true =>
            simp only [replaceEach, List.filter_cons, change, ↓reduceIte, List.foldlM_cons,
              List.map_cons, replaceFirst_split (fresh change) rfl, settles row change, bind,
              Option.bind_some] at replaced
            simpa [replaceEach] using replaced
        | false =>
            simpa [List.filter_cons, change, keeps row change] using replaced
      obtain ⟨clear, apart⟩ := ih (fun later inside => renames later (List.mem_cons_of_mem _ inside))
        distinct moved (by simpa using keys)
      refine ⟨fun later inside change x present => ?_, List.pairwise_cons.mpr ⟨?_, apart⟩⟩
      · obtain rfl | inside := List.mem_cons.mp inside
        · exact fresh change x present
        · exact clear later inside change x (List.mem_append_left _ present)
      · rintro later inside ⟨change, same⟩
        exact clear later inside change _ (List.mem_append_right _ (List.mem_singleton_self _)) same

end Replacement

/-! ### Moves -/

theorem moveTo_map (f : α → ρ) (xs : List α) (source target : Nat) :
    (moveTo xs source target).map f = moveTo (xs.map f) source target := by
  simp only [moveTo, List.getElem?_map]
  cases xs[source]? with
  | none => rfl
  | some x => simp [List.map_insertIdx, List.eraseIdx_map]

theorem moveTo_perm (xs : List α) (source : Nat) {target : Nat} (bound : target < xs.length) :
    (moveTo xs source target).Perm xs := by
  simp only [moveTo]
  cases found : xs[source]? with
  | none => exact .refl _
  | some x =>
      obtain ⟨inside, rfl⟩ := List.getElem?_eq_some_iff.mp found
      have room : target ≤ (xs.eraseIdx source).length := by
        rw [List.length_eraseIdx_of_lt inside]
        omega
      exact (List.perm_insertIdx _ _ room).trans (List.getElem_cons_eraseIdx_perm inside)

theorem moveTo_split (placed skipped after : List α) (x : α) :
    moveTo (placed ++ (skipped ++ x :: after)) (placed.length + skipped.length) placed.length =
      placed ++ x :: (skipped ++ after) := by
  have found : (placed ++ (skipped ++ x :: after))[placed.length + skipped.length]? = some x := by
    rw [List.getElem?_append_right (by omega), Nat.add_sub_cancel_left]
    simp
  rw [moveTo, found]
  simp [List.eraseIdx_append_of_length_le, insertIdx_split]

theorem applyMoves_map (f : α → ρ) (xs : List α) (moves : List (Nat × Nat)) :
    (applyMoves xs moves).map f = applyMoves (xs.map f) moves := by
  induction moves generalizing xs with
  | nil => rfl
  | cons move moves ih =>
      simp only [applyMoves, List.foldl_cons] at ih ⊢
      rw [ih, moveTo_map]

theorem applyMoves_perm (xs : List α) {moves : List (Nat × Nat)}
    (bounds : ∀ move ∈ moves, move.2 < xs.length) : (applyMoves xs moves).Perm xs := by
  induction moves generalizing xs with
  | nil => exact .refl _
  | cons move moves ih =>
      have first := moveTo_perm xs move.1 (bounds move List.mem_cons_self)
      refine .trans (ih _ fun later inside => ?_) first
      rw [first.length_eq]
      exact bounds later (List.mem_cons_of_mem _ inside)

/-- The keys of an order that come before one that precedes them in the list. -/
def overtakers (xs : List κ) : List κ → List κ
  | [] => []
  | k :: order =>
      if ∃ later ∈ order, xs.idxOf later < xs.idxOf k then k :: overtakers xs order
      else overtakers xs order

section Arranging

variable {placed skipped after order : List κ} {k : κ}

/-- One step of the arrangement: the wanted key stands behind those it skips. -/
theorem arrange_cons (unplaced : k ∉ placed ++ skipped) :
    arrange placed.length (placed ++ (skipped ++ k :: after)) (k :: order) =
      if skipped = [] then arrange (placed ++ [k]).length (placed ++ [k] ++ (skipped ++ after)) order
      else (placed.length + skipped.length, placed.length) ::
        arrange (placed ++ [k]).length (placed ++ [k] ++ (skipped ++ after)) order := by
  have source : (placed ++ (skipped ++ k :: after)).idxOf k = placed.length + skipped.length := by
    rw [← List.append_assoc, List.idxOf_append_of_notMem unplaced]
    simp
  rw [arrange, source]
  cases skipped with
  | nil => simp
  | cons first skipped =>
      rw [moveTo_split]
      simp

/-- A wanted key is moved unless it is the first of those that are left. -/
theorem exists_before_iff (distinct : (skipped ++ k :: after).Nodup)
    (all : (skipped ++ after).Perm order) :
    (∃ later ∈ order, (skipped ++ k :: after).idxOf later < (skipped ++ k :: after).idxOf k) ↔
      skipped ≠ [] := by
  have unplaced : k ∉ skipped := fun early =>
    (List.nodup_append.mp distinct).2.2 k early k List.mem_cons_self rfl
  have here : (skipped ++ k :: after).idxOf k = skipped.length := by
    rw [List.idxOf_append_of_notMem unplaced]
    simp
  rw [here]
  constructor
  · rintro ⟨later, -, before⟩ rfl
    exact Nat.not_lt_zero _ before
  · intro some
    obtain ⟨first, inside⟩ := List.exists_mem_of_ne_nil skipped some
    refine ⟨first, all.mem_iff.mp (List.mem_append_left _ inside), ?_⟩
    rw [List.idxOf_append_of_mem inside]
    exact List.idxOf_lt_length_of_mem inside

/-- Without one key the others stand in the same order. -/
theorem idxOf_lt_drop {a b : κ} (first : a ≠ k) (second : b ≠ k) :
    (skipped ++ k :: after).idxOf a < (skipped ++ k :: after).idxOf b ↔
      (skipped ++ after).idxOf a < (skipped ++ after).idxOf b := by
  have early {c : κ} (inside : c ∈ skipped) : skipped.idxOf c < skipped.length :=
    List.idxOf_lt_length_of_mem inside
  have late {c : κ} (other : c ≠ k) : (k :: after).idxOf c = after.idxOf c + 1 :=
    List.idxOf_cons_ne after other.symm
  simp only [List.idxOf_append, late first, late second]
  by_cases ha : a ∈ skipped <;> by_cases hb : b ∈ skipped <;> simp only [ha, hb, ↓reduceIte]
  · have := early ha
    omega
  · have := early hb
    omega
  · omega

theorem overtakers_congr {xs ys : List κ}
    (same : ∀ a ∈ order, ∀ b ∈ order, (xs.idxOf a < xs.idxOf b ↔ ys.idxOf a < ys.idxOf b)) :
    overtakers xs order = overtakers ys order := by
  induction order with
  | nil => rfl
  | cons k order ih =>
      have rest := ih fun a first b second =>
        same a (List.mem_cons_of_mem _ first) b (List.mem_cons_of_mem _ second)
      have before : (∃ later ∈ order, xs.idxOf later < xs.idxOf k) ↔
          ∃ later ∈ order, ys.idxOf later < ys.idxOf k :=
        exists_congr fun later => and_congr_right fun inside =>
          same later (List.mem_cons_of_mem _ inside) k List.mem_cons_self
      simp only [overtakers, before, rest]

end Arranging

/-- Distinct keys end up in the wanted order, and every move stays inside the list. -/
theorem arrange_spec (placed rest order : List κ) (distinct : (placed ++ rest).Nodup)
    (all : rest.Perm order) :
    applyMoves (placed ++ rest) (arrange placed.length (placed ++ rest) order) = placed ++ order ∧
      ∀ move ∈ arrange placed.length (placed ++ rest) order,
        move.1 < (placed ++ rest).length ∧ move.2 < (placed ++ rest).length := by
  induction order generalizing placed rest with
  | nil =>
      rw [List.perm_nil.mp all]
      exact ⟨rfl, by simp [arrange]⟩
  | cons k order ih =>
      obtain ⟨skipped, after, rfl⟩ := List.append_of_mem (all.mem_iff.mpr List.mem_cons_self)
      have unplaced : k ∉ placed ++ skipped := by
        rw [← List.append_assoc] at distinct
        exact fun early => (List.nodup_append.mp distinct).2.2 k early k List.mem_cons_self rfl
      have shuffled : (placed ++ k :: (skipped ++ after)).Perm
          (placed ++ (skipped ++ k :: after)) := List.perm_middle.symm.append_left placed
      obtain ⟨moved, bounds⟩ := ih (placed ++ [k]) (skipped ++ after)
        (by simpa using shuffled.nodup_iff.mpr distinct)
        ((List.perm_cons k).mp (List.perm_middle.symm.trans all))
      rw [arrange_cons unplaced]
      split
      next first =>
        obtain rfl := first
        simpa using And.intro moved bounds
      next =>
        simp only [applyMoves, List.foldl_cons, moveTo_split]
        simp only [applyMoves, List.append_assoc, List.singleton_append] at moved bounds ⊢
        refine ⟨moved, fun move inside => ?_⟩
        obtain rfl | later := List.mem_cons.mp inside
        · simp
        · have bound := bounds move later
          simp only [List.length_append, List.length_cons] at bound ⊢
          omega

/-- Distinct keys are moved exactly where they overtake another. -/
theorem arrange_length (placed rest order : List κ) (distinct : (placed ++ rest).Nodup)
    (all : rest.Perm order) :
    (arrange placed.length (placed ++ rest) order).length = (overtakers rest order).length := by
  induction order generalizing placed rest with
  | nil => rfl
  | cons k order ih =>
      obtain ⟨skipped, after, rfl⟩ := List.append_of_mem (all.mem_iff.mpr List.mem_cons_self)
      have unplaced : k ∉ placed ++ skipped := by
        rw [← List.append_assoc] at distinct
        exact fun early => (List.nodup_append.mp distinct).2.2 k early k List.mem_cons_self rfl
      have shuffled : (placed ++ k :: (skipped ++ after)).Perm
          (placed ++ (skipped ++ k :: after)) := List.perm_middle.symm.append_left placed
      have others : (skipped ++ after).Perm order :=
        (List.perm_cons k).mp (List.perm_middle.symm.trans all)
      have apart : (skipped ++ k :: after).Nodup := (List.nodup_append.mp distinct).2.1
      have single : k ∉ skipped ++ after :=
        (List.nodup_cons.mp (List.perm_middle.nodup_iff.mp apart)).1
      have next := ih (placed ++ [k]) (skipped ++ after)
        (by simpa using shuffled.nodup_iff.mpr distinct) others
      have same : overtakers (skipped ++ k :: after) order = overtakers (skipped ++ after) order :=
        overtakers_congr fun a first b second => idxOf_lt_drop
          (fun equal => single (equal ▸ others.mem_iff.mpr first))
          (fun equal => single (equal ▸ others.mem_iff.mpr second))
      rw [arrange_cons unplaced, overtakers, same]
      simp only [exists_before_iff apart others]
      cases skipped with
      | nil => simpa using next
      | cons first skipped => simpa using next

omit [DecidableEq κ] in
theorem eq_of_keys {key : α → κ} {xs ys : List α}
    (injective : ∀ x ∈ xs, ∀ y ∈ ys, key x = key y → x = y) (same : xs.map key = ys.map key) :
    xs = ys := by
  induction xs generalizing ys with
  | nil => exact (List.map_eq_nil_iff.mp same.symm).symm
  | cons x xs ih =>
      cases ys with
      | nil => contradiction
      | cons y ys =>
          obtain ⟨first, rest⟩ := List.cons.inj same
          obtain rfl := injective x List.mem_cons_self y List.mem_cons_self first
          rw [ih (fun a inside b present => injective a (List.mem_cons_of_mem _ inside) b
            (List.mem_cons_of_mem _ present)) rest]

/-- The moves computed on the keys bring entries with distinct keys into the wanted order. -/
theorem applyMoves_arrange (key : α → κ) {xs order : List α} (distinct : (xs.map key).Nodup)
    (all : xs.Perm order) :
    applyMoves xs (arrange 0 (xs.map key) (order.map key)) = order ∧
      ∀ move ∈ arrange 0 (xs.map key) (order.map key),
        move.1 < xs.length ∧ move.2 < xs.length := by
  obtain ⟨keys, bounds⟩ := arrange_spec [] (xs.map key) (order.map key) distinct (all.map key)
  simp only [List.nil_append, List.length_nil, List.length_map] at keys bounds
  refine ⟨eq_of_keys (fun x moved y wanted same => ?_) ((applyMoves_map key xs _).trans keys),
    bounds⟩
  have perm := applyMoves_perm xs fun move inside => (bounds move inside).2
  exact List.inj_on_of_nodup_map distinct (perm.mem_iff.mp moved) (all.mem_iff.mpr wanted) same

theorem duplicate_of_not_nodup {key : α → κ} {xs : List α} (shared : ¬ (xs.map key).Nodup) :
    ∃ x y rest, xs.Perm (x :: y :: rest) ∧ key x = key y := by
  induction xs with
  | nil => exact absurd List.nodup_nil shared
  | cons x xs ih =>
      by_cases again : key x ∈ xs.map key
      · obtain ⟨y, inside, same⟩ := List.mem_map.mp again
        obtain ⟨before, after, rfl⟩ := List.append_of_mem inside
        exact ⟨x, y, before ++ after, List.perm_middle.cons x, same.symm⟩
      · obtain ⟨a, b, rest, perm, same⟩ := ih fun distinct =>
          shared (List.nodup_cons.mpr ⟨again, distinct⟩)
        refine ⟨a, b, x :: rest, ?_, same⟩
        exact (perm.cons x).trans ((List.Perm.swap a x _).trans ((List.Perm.swap b x _).cons a))

end MapGo.ListEdit
