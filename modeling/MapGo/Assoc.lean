import Mathlib

/-! Dictionaries as lists of pairs with distinct keys, in the order in which the keys came. -/
namespace Assoc
variable {κ ν : Type*} [DecidableEq κ] {d : List (κ × ν)} {key other : κ} {value item : ν}

/-- `d[key] = value`, which keeps the place of a key. -/
def assign (key : κ) (value : ν) : List (κ × ν) → List (κ × ν)
  | [] => [(key, value)]
  | (name, old) :: rest =>
      if name = key then (key, value) :: rest else (name, old) :: assign key value rest

/-- `d.pop(key, None)` -/
def erase (key : κ) (d : List (κ × ν)) : List (κ × ν) := d.filter fun pair => pair.1 ≠ key

/-- `d.setdefault(key, value)` -/
def setdefault (key : κ) (value : ν) (d : List (κ × ν)) : List (κ × ν) :=
  if key ∈ d.map Prod.fst then d else d ++ [(key, value)]

/-- The first item of every key. -/
def firsts (key : ν → κ) (items : List ν) : List ν :=
  (items.foldl (fun d item => setdefault (key item) item d) []).map Prod.snd

def Distinct (d : List (κ × ν)) : Prop := (d.map Prod.fst).Nodup

theorem lookup_assign : (assign key value d).lookup other =
    if other = key then some value else d.lookup other := by
  induction d with
  | nil =>
      rw [assign, List.lookup_cons]
      by_cases same : other = key
      · simp [same]
      · simp [same, beq_eq_false_iff_ne.mpr same]
  | cons pair rest ih =>
      obtain ⟨first, old⟩ := pair
      rw [assign]
      split
      · rename_i here
        subst here
        rw [List.lookup_cons, List.lookup_cons]
        by_cases same : other = first
        · simp [same]
        · simp [same, beq_eq_false_iff_ne.mpr same]
      · rename_i elsewhere
        rw [List.lookup_cons, List.lookup_cons, ih]
        by_cases same : other = first
        · subst same
          simp [elsewhere]
        · simp [beq_eq_false_iff_ne.mpr same]

theorem keys_assign : (assign key value d).map Prod.fst =
    if key ∈ d.map Prod.fst then d.map Prod.fst else d.map Prod.fst ++ [key] := by
  induction d with
  | nil => rfl
  | cons pair rest ih =>
      obtain ⟨first, old⟩ := pair
      rw [assign]
      by_cases here : first = key
      · simp [here]
      · rw [if_neg here, List.map_cons, ih]
        by_cases later : key ∈ rest.map Prod.fst
        · simp [later]
        · simp [later, Ne.symm here]

theorem Distinct.assign (distinct : Distinct d) : Distinct (assign key value d) := by
  unfold Distinct
  rw [keys_assign]
  split
  · exact distinct
  · rename_i fresh
    refine List.nodup_append.mpr ⟨distinct, List.nodup_singleton key, ?_⟩
    rintro name inside last there rfl
    exact fresh (List.mem_singleton.mp there ▸ inside)

omit [DecidableEq κ] in
theorem Distinct.filter {p : κ × ν → Bool} (distinct : Distinct d) : Distinct (d.filter p) :=
  distinct.sublist (List.filter_sublist.map Prod.fst)

theorem length_assign : (assign key value d).length =
    if key ∈ d.map Prod.fst then d.length else d.length + 1 := by
  have keys : ((assign key value d).map Prod.fst).length = _ := congrArg List.length keys_assign
  rw [List.length_map] at keys
  rw [keys]
  split <;> simp

theorem lookup_eq_none : d.lookup key = none ↔ key ∉ d.map Prod.fst := by
  induction d with
  | nil => simp
  | cons pair rest ih =>
      rw [List.lookup_cons, List.map_cons, List.mem_cons, not_or, ← ih]
      by_cases here : key = pair.1
      · simp [here]
      · simp [beq_eq_false_iff_ne.mpr here, here]

theorem mem_of_lookup (found : d.lookup key = some value) : (key, value) ∈ d := by
  induction d with
  | nil => contradiction
  | cons pair rest ih =>
      rw [List.lookup_cons] at found
      by_cases here : key = pair.1
      · rw [beq_iff_eq.mpr here] at found
        obtain rfl := Option.some.inj found
        rw [here]
        exact List.mem_cons_self
      · rw [beq_eq_false_iff_ne.mpr here] at found
        exact List.mem_cons_of_mem _ (ih found)

theorem Distinct.lookup (distinct : Distinct d) (member : (key, value) ∈ d) :
    d.lookup key = some value := by
  induction d with
  | nil => contradiction
  | cons pair rest ih =>
      obtain ⟨fresh, distinct⟩ := List.nodup_cons.mp distinct
      rw [List.lookup_cons]
      rcases List.mem_cons.mp member with rfl | later
      · simp
      · have different : key ≠ pair.1 := by
          rintro rfl
          exact fresh (List.mem_map.mpr ⟨_, later, rfl⟩)
        rw [beq_eq_false_iff_ne.mpr different]
        exact ih distinct later

/-- A filter keeps an entry exactly if it passes. -/
theorem Distinct.lookup_filter (distinct : Distinct d) (p : κ × ν → Bool) :
    (d.filter p).lookup key = (d.lookup key).filter fun value => p (key, value) := by
  cases found : d.lookup key with
  | none =>
      rw [Option.filter_none, lookup_eq_none]
      intro member
      exact lookup_eq_none.mp found ((List.filter_sublist.map Prod.fst).subset member)
  | some value =>
      have member := mem_of_lookup found
      by_cases passes : p (key, value) = true
      · rw [Option.filter_some, if_pos passes]
        exact distinct.filter.lookup (List.mem_filter.mpr ⟨member, passes⟩)
      · rw [Option.filter_some, if_neg passes, lookup_eq_none]
        intro inside
        obtain ⟨⟨_, item⟩, kept, rfl⟩ := List.mem_map.mp inside
        obtain ⟨inside, kept⟩ := List.mem_filter.mp kept
        rw [distinct.lookup inside] at found
        obtain rfl := Option.some.inj found
        exact passes kept

theorem assign_of_absent (absent : key ∉ d.map Prod.fst) :
    assign key value d = d ++ [(key, value)] := by
  induction d with
  | nil => rfl
  | cons pair rest ih =>
      rw [List.map_cons, List.mem_cons, not_or] at absent
      rw [assign, if_neg (Ne.symm absent.1), ih absent.2, List.cons_append]

/-- Storing the value that is there changes nothing. -/
theorem assign_of_lookup (found : d.lookup key = some value) : assign key value d = d := by
  induction d with
  | nil => contradiction
  | cons pair rest ih =>
      rw [List.lookup_cons] at found
      rw [assign]
      by_cases here : key = pair.1
      · rw [beq_iff_eq.mpr here] at found
        obtain rfl := Option.some.inj found
        rw [if_pos here.symm, here]
      · rw [beq_eq_false_iff_ne.mpr here] at found
        rw [if_neg (Ne.symm here), ih found]

theorem map_assign {μ : Type*} (f : ν → μ) :
    (assign key value d).map (fun pair => (pair.1, f pair.2)) =
      assign key (f value) (d.map fun pair => (pair.1, f pair.2)) := by
  induction d with
  | nil => rfl
  | cons pair rest ih =>
      rw [assign, List.map_cons, assign]
      by_cases here : pair.1 = key
      · rw [if_pos here, if_pos here, List.map_cons]
      · rw [if_neg here, if_neg here, List.map_cons, ih]

theorem lookup_map {μ : Type*} (f : ν → μ) :
    (d.map fun pair => (pair.1, f pair.2)).lookup key = (d.lookup key).map f := by
  induction d with
  | nil => rfl
  | cons pair rest ih =>
      rw [List.map_cons, List.lookup_cons, List.lookup_cons]
      by_cases here : key = pair.1
      · simp [here]
      · simp [beq_eq_false_iff_ne.mpr here, ih]

theorem map_erase {μ : Type*} (f : ν → μ) :
    (erase key d).map (fun pair => (pair.1, f pair.2)) =
      erase key (d.map fun pair => (pair.1, f pair.2)) := by
  rw [erase, erase, List.filter_map]
  rfl

theorem not_mem_erase : key ∉ (erase key d).map Prod.fst := by
  intro member
  obtain ⟨pair, kept, same⟩ := List.mem_map.mp member
  exact of_decide_eq_true (List.mem_filter.mp kept).2 same

theorem Distinct.erase (distinct : Distinct d) : Distinct (erase key d) := distinct.filter

/-- A sum of weights after a value is stored. -/
theorem sum_map_assign {M : Type*} [AddCommMonoid M] (weight : ν → M) :
    ((assign key value d).map fun pair => weight pair.2).sum + (d.lookup key).elim 0 weight =
      (d.map fun pair => weight pair.2).sum + weight value := by
  induction d with
  | nil => simp [assign]
  | cons pair rest ih =>
      rw [assign, List.lookup_cons]
      by_cases here : pair.1 = key
      · simp only [here, BEq.rfl, if_true, List.map_cons, List.sum_cons, Option.elim_some]
        rw [add_right_comm, add_comm (weight value), add_right_comm]
      · rw [if_neg here, beq_eq_false_iff_ne.mpr (Ne.symm here), List.map_cons, List.sum_cons,
          List.map_cons, List.sum_cons, add_assoc, ih, add_assoc]

/-- A sum over the values after one of them is stored. -/
theorem sum_assign {sizes : List (κ × ℕ)} {size : ℕ} :
    ((assign key size sizes).map Prod.snd).sum + (sizes.lookup key).getD 0 =
      (sizes.map Prod.snd).sum + size := by
  have sums := @sum_map_assign κ ℕ _ sizes key size ℕ _ id
  cases found : sizes.lookup key with
  | none => simpa [found] using sums
  | some old => simpa [found] using sums

/-- A sum over the values after one of them is removed. -/
theorem sum_erase {sizes : List (κ × ℕ)} (distinct : Distinct sizes) :
    ((erase key sizes).map Prod.snd).sum + (sizes.lookup key).getD 0 =
      (sizes.map Prod.snd).sum := by
  induction sizes with
  | nil => rfl
  | cons pair rest ih =>
      obtain ⟨fresh, distinct⟩ := List.nodup_cons.mp distinct
      have smaller := ih distinct
      rw [List.lookup_cons]
      by_cases here : pair.1 = key
      · have kept : Assoc.erase key (pair :: rest) = rest := by
          rw [Assoc.erase, List.filter_cons_of_neg (by simp [here]), List.filter_eq_self]
          intro other member
          refine decide_eq_true fun same => fresh ?_
          exact List.mem_map.mpr ⟨other, member, same.trans here.symm⟩
        rw [kept, beq_iff_eq.mpr here.symm, List.map_cons, List.sum_cons, Option.getD_some]
        exact Nat.add_comm _ _
      · have kept : Assoc.erase key (pair :: rest) = pair :: Assoc.erase key rest :=
          List.filter_cons_of_pos (by simp [here])
        rw [kept, beq_eq_false_iff_ne.mpr (Ne.symm here), List.map_cons, List.sum_cons,
          List.map_cons, List.sum_cons]
        dsimp only
        omega

/-! The first items of their keys. -/

section
variable {keyOf : ν → κ} {items : List ν} {x : ν}

/-- An item without an earlier one of its key. -/
def IsFirst (keyOf : ν → κ) (items : List ν) (x : ν) : Prop :=
  ∃ before after, items = before ++ x :: after ∧ ∀ y ∈ before, keyOf y ≠ keyOf x

omit [DecidableEq κ] in
theorem isFirst_cons {item : ν} : IsFirst keyOf (item :: items) x ↔
    x = item ∨ (keyOf item ≠ keyOf x ∧ IsFirst keyOf items x) := by
  constructor
  · rintro ⟨before, after, parts, earlier⟩
    cases before with
    | nil => exact .inl (List.cons.inj parts).1.symm
    | cons first before =>
        obtain ⟨rfl, rfl⟩ := List.cons.inj parts
        exact .inr ⟨earlier item List.mem_cons_self, before, after, rfl,
          fun y member => earlier y (List.mem_cons_of_mem _ member)⟩
  · rintro (rfl | ⟨differs, before, after, rfl, earlier⟩)
    · exact ⟨[], items, rfl, fun _ => nofun⟩
    · exact ⟨item :: before, after, rfl, List.forall_mem_cons.mpr ⟨differs, earlier⟩⟩

theorem Distinct.setdefault (distinct : Distinct d) : Distinct (setdefault key value d) := by
  unfold Assoc.setdefault
  split
  · exact distinct
  · rename_i fresh
    rw [← assign_of_absent fresh]
    exact distinct.assign

/-- The fold that collects the first items, from a dictionary on. -/
theorem foldl_setdefault (keyOf : ν → κ) (items : List ν) {d : List (κ × ν)} (distinct : Distinct d)
    (keyed : ∀ pair ∈ d, pair.1 = keyOf pair.2) :
    let kept := items.foldl (fun d item => setdefault (keyOf item) item d) d
    Distinct kept ∧ (∀ pair ∈ kept, pair.1 = keyOf pair.2) ∧
      ∀ x, x ∈ kept.map Prod.snd ↔
        x ∈ d.map Prod.snd ∨ (IsFirst keyOf items x ∧ keyOf x ∉ d.map Prod.fst) := by
  induction items generalizing d with
  | nil =>
      refine ⟨distinct, keyed, fun x => ?_⟩
      simp [IsFirst]
  | cons item rest ih =>
      have further : ∀ pair ∈ setdefault (keyOf item) item d, pair.1 = keyOf pair.2 := by
        unfold setdefault
        split
        · exact keyed
        · intro pair member
          rcases List.mem_append.mp member with earlier | last
          · exact keyed pair earlier
          · rw [List.mem_singleton.mp last]
      obtain ⟨distinct', keyed', members⟩ := ih distinct.setdefault further
      refine ⟨distinct', keyed', fun x => (members x).trans ?_⟩
      rw [isFirst_cons, setdefault]
      by_cases known : keyOf item ∈ d.map Prod.fst
      · rw [if_pos known]
        have apart : keyOf x ∉ d.map Prod.fst → keyOf item ≠ keyOf x :=
          fun fresh same => fresh (same ▸ known)
        have other : keyOf x ∉ d.map Prod.fst → x ≠ item :=
          fun fresh same => fresh (same ▸ known)
        tauto
      · rw [if_neg known, List.map_append, List.map_append]
        simp only [List.map_cons, List.map_nil, List.mem_append, List.mem_singleton, not_or]
        have held : x = item → keyOf x ∉ d.map Prod.fst := fun same => same ▸ known
        have swap : keyOf x = keyOf item ↔ keyOf item = keyOf x := eq_comm
        tauto

theorem mem_firsts : x ∈ firsts keyOf items ↔ IsFirst keyOf items x := by
  have kept := (foldl_setdefault keyOf items (d := []) List.nodup_nil nofun).2.2 x
  simpa [firsts] using kept

theorem firsts_distinct : ((firsts keyOf items).map keyOf).Nodup := by
  obtain ⟨distinct, keyed, -⟩ := foldl_setdefault keyOf items (d := []) List.nodup_nil nofun
  rw [firsts, List.map_map]
  rw [Distinct, List.map_congr_left keyed] at distinct
  exact distinct

end

/-! Items grouped by their keys, each group folded into the value of its key. -/

section
variable {ι : Type*} {keyOf : ι → κ} {step : ν → ι → ν} {init : ν} {items : List ι}

/-- `for item in items: d[key(item)] = step(d.get(key(item), init), item)` -/
def group (keyOf : ι → κ) (step : ν → ι → ν) (init : ν) (items : List ι) (d : List (κ × ν)) :
    List (κ × ν) :=
  items.foldl (fun d item => assign (keyOf item) (step ((d.lookup (keyOf item)).getD init) item) d) d

theorem lookup_group : (group keyOf step init items d).lookup key =
    if ∃ item ∈ items, keyOf item = key then
      some ((items.filter fun item => keyOf item = key).foldl step ((d.lookup key).getD init))
    else d.lookup key := by
  induction items generalizing d with
  | nil => simp [group]
  | cons item rest ih =>
      have later := @ih (assign (keyOf item) (step ((d.lookup (keyOf item)).getD init) item) d)
      rw [group, List.foldl_cons]
      refine Eq.trans later ?_
      rw [lookup_assign]
      by_cases own : keyOf item = key
      · subst own
        have first : ∃ other ∈ item :: rest, keyOf other = keyOf item :=
          ⟨item, List.mem_cons_self, rfl⟩
        rw [if_pos rfl, if_pos first, List.filter_cons_of_pos (by simp), List.foldl_cons,
          Option.getD_some]
        split
        · rfl
        · rename_i alone
          have empty : (rest.filter fun other => keyOf other = keyOf item) = [] :=
            List.filter_eq_nil_iff.mpr fun other member same =>
              alone ⟨other, member, of_decide_eq_true same⟩
          rw [empty, List.foldl_nil]
      · rw [if_neg (Ne.symm own), List.filter_cons_of_neg (by simpa using own)]
        simp only [List.exists_mem_cons_iff, own, false_or]

theorem mem_keys_group : key ∈ (group keyOf step init items d).map Prod.fst ↔
    key ∈ d.map Prod.fst ∨ ∃ item ∈ items, keyOf item = key := by
  rw [← not_iff_not, not_or, ← lookup_eq_none, ← lookup_eq_none, lookup_group]
  split
  · rename_i present
    simp [present]
  · rename_i absent
    simp [absent]

theorem Distinct.group (distinct : Distinct d) :
    Distinct (group keyOf step init items d) := by
  induction items generalizing d with
  | nil => exact distinct
  | cons item rest ih => exact ih distinct.assign

/-- No weight is lost: that of the groups is what the items have brought. -/
theorem sum_group {M : Type*} [AddCancelCommMonoid M] {weight : ν → M} {brings : ι → M}
    (empty : weight init = 0)
    (adds : ∀ value item, weight (step value item) = weight value + brings item) :
    ((group keyOf step init items d).map fun pair => weight pair.2).sum =
      (d.map fun pair => weight pair.2).sum + (items.map brings).sum := by
  induction items generalizing d with
  | nil => simp [group]
  | cons item rest ih =>
      have later := @ih (assign (keyOf item) (step ((d.lookup (keyOf item)).getD init) item) d)
      have stored := @sum_map_assign κ ν _ d (keyOf item)
        (step ((d.lookup (keyOf item)).getD init) item) M _ weight
      have before : (d.lookup (keyOf item)).elim 0 weight =
          weight ((d.lookup (keyOf item)).getD init) := by
        cases d.lookup (keyOf item) with
        | none => exact empty.symm
        | some value => rfl
      rw [before, adds, add_comm (weight _), ← add_assoc] at stored
      rw [group, List.foldl_cons]
      refine Eq.trans later ?_
      rw [add_right_cancel stored, List.map_cons, List.sum_cons, add_assoc]

theorem sum_foldl {M : Type*} [AddCommMonoid M] {weight : ν → M} {brings : ι → M}
    (adds : ∀ value item, weight (step value item) = weight value + brings item) (start : ν) :
    weight (items.foldl step start) = weight start + (items.map brings).sum := by
  induction items generalizing start with
  | nil => simp
  | cons item rest ih => rw [List.foldl_cons, ih, adds, List.map_cons, List.sum_cons, add_assoc]

end

end Assoc
