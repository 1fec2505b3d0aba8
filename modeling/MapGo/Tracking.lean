import Mathlib

/-! Computations that may clash, beside a reading of them that cannot. A computation tracks its
reading when it clashes only where a condition on its inputs fails, follows the reading where the
condition holds, and is lost with its reading. Sequences and loops of such computations track
the sequence and loop of their readings. -/
namespace Tracking
variable {ε α β σ τ ι : Type}

inductive Tracks (clash : ε) (R : α → β → Prop) (fits : Prop) : Except ε α → Option β → Prop where
  | follows {a b} (fit : fits) (related : R a b) : Tracks clash R fits (.ok a) (some b)
  | lost {e} (other : e ≠ clash) : Tracks clash R fits (.error e) none
  | clashes {y} (unfit : ¬ fits) : Tracks clash R fits (.error clash) y

namespace Tracks
variable {clash : ε} {R : α → β → Prop} {S : σ → τ → Prop} {p q : Prop} {x : Except ε α}
  {y : Option β}

theorem congr (tracks : Tracks clash R p x y) (same : p ↔ q) : Tracks clash R q x y :=
  propext same ▸ tracks

theorem mono {R' : α → β → Prop} (tracks : Tracks clash R p x y)
    (weakens : ∀ a b, R a b → R' a b) : Tracks clash R' p x y := by
  cases tracks with
  | follows fit related => exact .follows fit (weakens _ _ related)
  | lost other => exact .lost other
  | clashes unfit => exact .clashes unfit

theorem of_related {a : α} {b : β} (related : R a b) : Tracks clash R True (.ok a) (some b) :=
  .follows trivial related

/-- Where the first computation has clashed, the second is not reached. -/
theorem bind {f : α → Except ε σ} {g : β → Option τ} (tracks : Tracks clash R p x y)
    (next : p → ∀ a b, y = some b → R a b → Tracks clash S q (f a) (g b)) :
    Tracks clash S (p ∧ q) (x >>= f) (y.bind g) := by
  cases tracks with
  | follows fit related => exact (next fit _ _ rfl related).congr (and_iff_right fit).symm
  | lost other => exact .lost other
  | clashes unfit => exact .clashes fun both => unfit both.1

theorem foldlM {f : σ → ι → Except ε σ} {g : τ → ι → Option τ} {fits : ι → Prop}
    (step : ∀ item s t, S s t → Tracks clash S (fits item) (f s item) (g t item))
    (items : List ι) {s : σ} {t : τ} (related : S s t) :
    Tracks clash S (∀ item ∈ items, fits item) (items.foldlM f s) (items.foldlM g t) := by
  induction items generalizing s t with
  | nil => exact .follows (List.forall_mem_nil _) related
  | cons item rest ih =>
      rw [List.foldlM_cons, List.foldlM_cons]
      apply ((step item s t related).bind fun _ _ _ _ later => ih later).congr
      exact List.forall_mem_cons.symm

theorem ne_clash (tracks : Tracks clash R p x y) (fit : p) : x ≠ .error clash := by
  cases tracks with
  | follows _ related => exact fun same => by cases same
  | lost other => exact fun same => other (Except.error.inj same)
  | clashes unfit => exact absurd fit unfit

/-- Where the reading answers, the computation clashes exactly when its inputs do not fit. -/
theorem ne_clash_iff {b : β} (tracks : Tracks clash R p x (some b)) :
    x ≠ .error clash ↔ p := by
  cases tracks with
  | follows fit _ => exact iff_of_true (fun same => by cases same) fit
  | clashes unfit => exact iff_of_false (fun ne => ne rfl) unfit

theorem related {b : β} (tracks : Tracks clash R p x (some b)) (fit : p) :
    ∃ a, x = .ok a ∧ R a b := by
  cases tracks with
  | follows _ related => exact ⟨_, rfl, related⟩
  | clashes unfit => exact absurd fit unfit

end Tracks
end Tracking
