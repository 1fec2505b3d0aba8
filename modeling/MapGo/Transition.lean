import Mathlib

/-! Executable labelled transition systems. A machine answers each action with
its successor or refuses it, so a script of actions is evaluated while its
invariants are proved once for every reachable state. Restriction keeps the
steps that meet a condition and supports results about such runs alone. -/
namespace Transition
variable {S A : Type*}

structure Machine (S A : Type*) where
  initial : S → Prop
  step : S → A → Option S

namespace Machine

/-- Follow a script of actions; a refused action ends it without a result. -/
def run (m : Machine S A) : S → List A → Option S
  | s, [] => some s
  | s, a :: rest => (m.step s a).bind fun t => m.run t rest

inductive Reaches (m : Machine S A) : S → S → Prop where
  | refl (s) : Reaches m s s
  | next {s t u a} : Reaches m s t → m.step t a = some u → Reaches m s u

def Reachable (m : Machine S A) (s : S) : Prop := ∃ start, m.initial start ∧ m.Reaches start s

variable {m : Machine S A}

theorem Reaches.head (first : m.step s a = some t) (rest : m.Reaches t u) : m.Reaches s u := by
  induction rest with
  | refl => exact .next (.refl _) first
  | next _ last ih => exact .next ih last

theorem Reaches.trans (first : m.Reaches s t) (rest : m.Reaches t u) : m.Reaches s u := by
  induction rest with
  | refl => exact first
  | next _ last ih => exact .next ih last

theorem Reaches.invariant {P : S → Prop}
    (preserves : ∀ {s a t}, P s → m.step s a = some t → P t)
    (path : m.Reaches s t) (start : P s) : P t := by
  induction path with
  | refl => exact start
  | next _ last ih => exact preserves ih last

theorem Reachable.invariant {P : S → Prop} (starts : ∀ s, m.initial s → P s)
    (preserves : ∀ {s a t}, P s → m.step s a = some t → P t)
    (reached : m.Reachable s) : P s := by
  obtain ⟨start, initial, path⟩ := reached
  exact path.invariant preserves (starts start initial)

theorem Reachable.next (reached : m.Reachable s) (last : m.step s a = some t) :
    m.Reachable t := by
  obtain ⟨start, initial, path⟩ := reached
  exact ⟨start, initial, .next path last⟩

theorem reaches_of_run (script : List A) (ran : m.run s script = some t) : m.Reaches s t := by
  induction script generalizing s with
  | nil =>
      cases Option.some.inj ran
      exact .refl _
  | cons a rest ih =>
      obtain ⟨middle, first, ran⟩ := Option.bind_eq_some_iff.mp ran
      exact .head first (ih ran)

theorem reachable_of_run (script : List A) (initial : m.initial s)
    (ran : m.run s script = some t) : m.Reachable t :=
  ⟨s, initial, reaches_of_run script ran⟩

open Classical in
/-- The runs whose every step meets a condition on the state before it. -/
noncomputable def restrict (m : Machine S A) (meets : S → A → Prop) : Machine S A where
  initial := m.initial
  step s a := if meets s a then m.step s a else none

variable {meets : S → A → Prop}

theorem restrict_step :
    (m.restrict meets).step s a = some t ↔ meets s a ∧ m.step s a = some t := by
  by_cases kept : meets s a <;> simp [restrict, kept]

theorem Reaches.of_restrict (path : (m.restrict meets).Reaches s t) : m.Reaches s t := by
  induction path with
  | refl => exact .refl _
  | next _ last ih => exact .next ih (restrict_step.mp last).2

theorem Reachable.of_restrict (reached : (m.restrict meets).Reachable s) : m.Reachable s := by
  obtain ⟨start, initial, path⟩ := reached
  exact ⟨start, initial, path.of_restrict⟩

/-- The condition at every action of a script. -/
def MeetsAlong (m : Machine S A) (meets : S → A → Prop) : S → List A → Prop
  | _, [] => True
  | s, a :: rest => meets s a ∧ ∀ t, m.step s a = some t → m.MeetsAlong meets t rest

theorem meetsAlong_of_forall {script : List A} (met : ∀ a ∈ script, ∀ s, meets s a) :
    m.MeetsAlong meets s script := by
  induction script generalizing s with
  | nil => trivial
  | cons a rest ih =>
      exact ⟨met a List.mem_cons_self s,
        fun _ _ => ih fun b member => met b (List.mem_cons_of_mem _ member)⟩

theorem MeetsAlong.mono {weaker : S → A → Prop} (weakens : ∀ s a, meets s a → weaker s a)
    {script : List A} (met : m.MeetsAlong meets s script) : m.MeetsAlong weaker s script := by
  induction script generalizing s with
  | nil => trivial
  | cons a rest ih => exact ⟨weakens s a met.1, fun t stepped => ih (met.2 t stepped)⟩

/-- The condition evaluated along a script. -/
def along (m : Machine S A) (test : S → A → Bool) : S → List A → Bool
  | _, [] => true
  | s, a :: rest => test s a && match m.step s a with
    | some t => m.along test t rest
    | none => true

theorem meetsAlong_of_along {test : S → A → Bool} {script : List A}
    (met : m.along test s script = true) : m.MeetsAlong (fun s a => test s a = true) s script := by
  induction script generalizing s with
  | nil => trivial
  | cons a rest ih =>
      obtain ⟨first, rest'⟩ := Bool.and_eq_true .. ▸ met
      refine ⟨first, fun t stepped => ih ?_⟩
      rwa [stepped] at rest'

theorem reaches_restrict_of_run (script : List A) (ran : m.run s script = some t)
    (met : m.MeetsAlong meets s script) : (m.restrict meets).Reaches s t := by
  induction script generalizing s with
  | nil =>
      cases Option.some.inj ran
      exact .refl _
  | cons a rest ih =>
      obtain ⟨middle, first, ran⟩ := Option.bind_eq_some_iff.mp ran
      exact .head (restrict_step.mpr ⟨met.1, first⟩) (ih ran (met.2 _ first))

theorem reachable_restrict_of_run (script : List A) (initial : m.initial s)
    (ran : m.run s script = some t) (met : m.MeetsAlong meets s script) :
    (m.restrict meets).Reachable t :=
  ⟨s, initial, reaches_restrict_of_run script ran met⟩

end Machine
end Transition
