import Mathlib

/-! Computations that keep their state when they fail, as a language with exceptions has them.
Every exit has a condition of its own on the state it leaves behind. -/
namespace Exits
variable {ε σ α β : Type} {pre other : σ → Prop} {post m : α → σ → Prop} {final : β → σ → Prop}
  {failed wider : ε → σ → Prop} {keep : σ → Prop} {prog : EStateM ε σ α}

/-- From a state that meets `pre`, results come in states that meet `post`, and failures in states
that meet `failed`. -/
def Ends (pre : σ → Prop) (prog : EStateM ε σ α) (post : α → σ → Prop)
    (failed : ε → σ → Prop) : Prop :=
  ∀ s, pre s →
    match prog s with
    | .ok a t => post a t
    | .error e t => failed e t

/-- What holds before holds at every exit. -/
def Keeps (keep : σ → Prop) (prog : EStateM ε σ α) : Prop :=
  Ends keep prog (fun _ => keep) (fun _ => keep)

theorem Ends.result (ends : Ends pre prog post failed) {s t : σ} {a : α} (start : pre s)
    (ran : prog s = .ok a t) : post a t := by
  have exits := ends s start
  rwa [ran] at exits

theorem Ends.failure (ends : Ends pre prog post failed) {s t : σ} {e : ε} (start : pre s)
    (ran : prog s = .error e t) : failed e t := by
  have exits := ends s start
  rwa [ran] at exits

theorem Ends.mono (ends : Ends pre prog m failed) (stronger : ∀ s, other s → pre s)
    (weaker : ∀ a s, m a s → post a s) (widens : ∀ e s, failed e s → wider e s) :
    Ends other prog post wider := by
  intro s start
  have exits := ends s (stronger s start)
  cases ran : prog s with
  | ok a t =>
      rw [ran] at exits
      exact weaker a t exits
  | error e t =>
      rw [ran] at exits
      exact widens e t exits

theorem Ends.weaken (ends : Ends pre prog m failed) (weaker : ∀ a s, m a s → post a s) :
    Ends pre prog post failed :=
  ends.mono (fun _ same => same) weaker (fun _ _ same => same)

theorem Ends.narrow (ends : Ends pre prog post failed) (stronger : ∀ s, other s → pre s) :
    Ends other prog post failed :=
  ends.mono stronger (fun _ _ same => same) (fun _ _ same => same)

theorem ends_pure {a : α} (holds : ∀ s, pre s → post a s) :
    Ends pre (pure a : EStateM ε σ α) post failed := holds

theorem ends_throw {e : ε} (holds : ∀ s, pre s → failed e s) :
    Ends pre (throw e : EStateM ε σ α) post failed := holds

theorem Ends.bind {rest : α → EStateM ε σ β} (first : Ends pre prog m failed)
    (next : ∀ a, Ends (m a) (rest a) final failed) : Ends pre (prog >>= rest) final failed := by
  intro s start
  have exits := first s start
  change match EStateM.bind prog rest s with
    | .ok b t => final b t
    | .error e t => failed e t
  unfold EStateM.bind
  cases ran : prog s with
  | ok a t =>
      rw [ran] at exits
      exact next a t exits
  | error e t =>
      rw [ran] at exits
      exact exits

theorem ends_modify {change : σ → σ} (holds : ∀ s, pre s → other (change s)) :
    Ends pre (modify change : EStateM ε σ PUnit) (fun _ => other) failed := holds

theorem ends_modifyGet {change : σ → α × σ} (holds : ∀ s, pre s → post (change s).1 (change s).2) :
    Ends pre (modifyGet change : EStateM ε σ α) post failed := holds

theorem ends_set {t : σ} (holds : ∀ s, pre s → other t) :
    Ends pre (set t : EStateM ε σ PUnit) (fun _ => other) failed := holds

/-- The rest of a computation that reads the state may use what it has read. -/
theorem ends_get {rest : σ → EStateM ε σ β}
    (next : ∀ s, pre s → Ends (fun t => t = s) (rest s) final failed) :
    Ends pre (get >>= rest) final failed :=
  fun s start => next s start s rfl

/-- A precondition that does not depend on the state. -/
theorem Ends.assume {fact : Prop} (holds : fact → Ends pre prog post failed) :
    Ends (fun s => fact ∧ pre s) prog post failed :=
  fun s start => holds start.1 s start.2

/-- A failure is turned into a result. -/
def captured (prog : EStateM ε σ α) : EStateM ε σ (Except ε α) := fun s =>
  match prog s with
  | .ok a t => .ok (.ok a) t
  | .error e t => .ok (.error e) t

theorem Ends.captured {exit : Except ε α → σ → Prop} (ends : Ends pre prog post failed)
    (returned : ∀ a s, post a s → exit (.ok a) s) (raised : ∀ e s, failed e s → exit (.error e) s) :
    Ends pre (captured prog) exit wider := by
  intro s start
  have exits := ends s start
  unfold Exits.captured
  cases ran : prog s with
  | ok a t =>
      rw [ran] at exits
      exact returned a t exits
  | error e t =>
      rw [ran] at exits
      exact raised e t exits

theorem Keeps.bind {rest : α → EStateM ε σ β} (first : Keeps keep prog)
    (next : ∀ a, Keeps keep (rest a)) : Keeps keep (prog >>= rest) :=
  Ends.bind first next

/-- Less is asked of the failures. -/
theorem Keeps.ends {least : σ → Prop} (keeps : Keeps keep prog) (enough : ∀ s, keep s → least s) :
    Ends keep prog (fun _ => keep) (fun _ => least) :=
  Ends.mono keeps (fun _ same => same) (fun _ _ same => same) fun _ => enough

theorem Keeps.captured (keeps : Keeps keep prog) : Keeps keep (captured prog) :=
  Ends.captured keeps (fun _ _ same => same) (fun _ _ same => same)

theorem keeps_pure {a : α} : Keeps keep (pure a : EStateM ε σ α) := fun _ same => same

theorem keeps_throw {e : ε} : Keeps keep (throw e : EStateM ε σ α) := fun _ same => same

theorem keeps_modify {change : σ → σ} (holds : ∀ s, keep s → keep (change s)) :
    Keeps keep (modify change : EStateM ε σ PUnit) := holds

theorem keeps_get {rest : σ → EStateM ε σ β} (next : ∀ s, Keeps keep (rest s)) :
    Keeps keep (get >>= rest) :=
  fun s start => next s s start

/-- At most `remaining` rounds; the first that has an answer ends them. -/
def rounds (body : Nat → EStateM ε σ (Option α)) (otherwise : α) : Nat → Nat → EStateM ε σ α
  | _, 0 => pure otherwise
  | round, remaining + 1 => do
      match ← body round with
      | some answer => pure answer
      | none => rounds body otherwise (round + 1) remaining

/-- What holds before each round leads to what holds at the end. -/
theorem ends_rounds {body : Nat → EStateM ε σ (Option α)} {otherwise : α} {limit : Nat}
    (inv : Nat → σ → Prop)
    (step : ∀ round, round < limit → Ends (inv round) (body round)
      (fun answer s => answer.elim (inv (round + 1) s) (post · s)) failed)
    (exhausted : ∀ s, inv limit s → post otherwise s) {round remaining : Nat}
    (whole : round + remaining = limit) :
    Ends (inv round) (rounds body otherwise round remaining) post failed := by
  induction remaining generalizing round with
  | zero =>
      obtain rfl : round = limit := by omega
      exact ends_pure exhausted
  | succ remaining ih =>
      apply Ends.bind (step round (by omega))
      intro answer
      cases answer with
      | some a => exact ends_pure fun _ same => same
      | none => exact ih (by omega)

end Exits
