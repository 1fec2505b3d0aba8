import Mathlib

/-! Postconditions of computations that may stop early. A computation ensures a postcondition
when each of its results meets it and each early stop is one of the tolerated ones. -/
namespace Postcondition
universe u v
variable {ε : Type u} {α β : Type v} {tolerated : ε → Prop} {post mid : α → Prop}
  {final : β → Prop}

def Ensures (tolerated : ε → Prop) (post : α → Prop) (x : Except ε α) : Prop :=
  match x with
  | .ok a => post a
  | .error stop => tolerated stop

@[simp] theorem ensures_ok {a : α} : Ensures tolerated post (.ok a) ↔ post a := Iff.rfl

@[simp] theorem ensures_pure {a : α} : Ensures tolerated post (pure a) ↔ post a := Iff.rfl

@[simp] theorem ensures_error {stop : ε} :
    Ensures tolerated post (.error stop : Except ε α) ↔ tolerated stop := Iff.rfl

theorem Ensures.mono {x : Except ε α} (ensures : Ensures tolerated mid x)
    (weaker : ∀ a, mid a → post a) : Ensures tolerated post x := by
  cases x with
  | ok a => exact weaker a ensures
  | error => exact ensures

theorem Ensures.tolerate {other : ε → Prop} {x : Except ε α} (ensures : Ensures tolerated post x)
    (wider : ∀ stop, tolerated stop → other stop) : Ensures other post x := by
  cases x with
  | ok a => exact ensures
  | error stop => exact wider stop ensures

theorem Ensures.result {x : Except ε α} {a : α} (ensures : Ensures tolerated post x)
    (ran : x = .ok a) : post a := by
  rwa [ran] at ensures

theorem Ensures.bind {x : Except ε α} {f : α → Except ε β} (first : Ensures tolerated mid x)
    (rest : ∀ a, mid a → Ensures tolerated final (f a)) : Ensures tolerated final (x >>= f) := by
  cases x with
  | ok a => exact rest a first
  | error => exact first

/-- The rest may also use how the first part ran. -/
theorem Ensures.bind_ran {x : Except ε α} {f : α → Except ε β} (first : Ensures tolerated mid x)
    (rest : ∀ a, x = .ok a → mid a → Ensures tolerated final (f a)) :
    Ensures tolerated final (x >>= f) := by
  cases x with
  | ok a => exact rest a rfl first
  | error => exact first

/-- How a computation stopped, if it did. -/
def stopped (x : Except ε α) : Option ε :=
  match x with
  | .ok _ => none
  | .error stop => some stop

theorem stopped_eq_some {x : Except ε α} {stop : ε} :
    stopped x = some stop ↔ x = .error stop := by
  cases x <;> simp [stopped]

/-- What each item keeps, the whole loop keeps. -/
theorem Ensures.foldlM (post : α → Prop) {step : α → β → Except ε α} {items : List β} {a : α}
    (keeps : ∀ a item, post a → Ensures tolerated post (step a item)) (start : post a) :
    Ensures tolerated post (items.foldlM step a) := by
  induction items generalizing a with
  | nil => exact start
  | cons item rest ih => exact Ensures.bind (keeps a item start) fun _ kept => ih kept

theorem ok_of_bind {x : Except ε α} {f : α → Except ε β} {b : β} :
    x >>= f = .ok b ↔ ∃ a, x = .ok a ∧ f a = .ok b := by
  cases x <;> simp [bind, Except.bind]

theorem mapM_ok_forall₂ {f : α → Except ε β} {items : List α} {results : List β}
    (ran : items.mapM f = .ok results) :
    List.Forall₂ (fun item result => f item = .ok result) items results := by
  induction items generalizing results with
  | nil =>
      obtain rfl := Except.ok.inj ran
      exact .nil
  | cons item rest ih =>
      rw [List.mapM_cons] at ran
      obtain ⟨result, first, ran⟩ := ok_of_bind.mp ran
      obtain ⟨others, later, same⟩ := ok_of_bind.mp ran
      obtain rfl := Except.ok.inj same
      exact .cons first (ih later)

theorem mapM_ok_iff {f : α → Except ε β} {items : List α} :
    (∃ results, items.mapM f = .ok results) ↔ ∀ item ∈ items, ∃ result, f item = .ok result := by
  induction items with
  | nil => exact iff_of_true ⟨[], rfl⟩ (by simp)
  | cons item rest ih =>
      rw [List.mapM_cons, List.forall_mem_cons, ← ih]
      simp only [ok_of_bind]
      constructor
      · rintro ⟨_, result, first, results, later, -⟩
        exact ⟨⟨result, first⟩, results, later⟩
      · rintro ⟨⟨result, first⟩, results, later⟩
        exact ⟨_, result, first, results, later, rfl⟩

end Postcondition
