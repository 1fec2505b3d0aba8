import Mathlib

/-! Numbered attempts. Attempts on an item are issued with rising numbers to workers, who start or
drop them. A number is issued once, so an item is started at most as often as there are numbers
that a worker may start with. -/
namespace Attempts

structure Ledger (W P : Type*) where
  /-- The last number that was issued for an item. -/
  issued : P → Nat
  inHand : W → Option (P × Nat)
  started : List (P × Nat)

namespace Ledger
variable {W P : Type*} {l : Ledger W P} {max : Nat}

def empty : Ledger W P := ⟨fun _ => 0, fun _ => none, []⟩

def issue [DecidableEq W] [DecidableEq P] (l : Ledger W P) (w : W) (p : P) : Ledger W P :=
  { l with
    issued := Function.update l.issued p (l.issued p + 1)
    inHand := Function.update l.inHand w (some (p, l.issued p + 1)) }

def drop [DecidableEq W] (l : Ledger W P) (w : W) : Ledger W P :=
  { l with inHand := Function.update l.inHand w none }

def start [DecidableEq W] (l : Ledger W P) (w : W) : Ledger W P :=
  { l.drop w with started := l.started ++ (l.inHand w).toList }

/-- Numbers are issued once, and only numbers up to a maximum are started. -/
structure Sound (max : Nat) (l : Ledger W P) : Prop where
  distinct : l.started.Nodup
  bounded : ∀ a ∈ l.started, 1 ≤ a.2 ∧ a.2 ≤ max ∧ a.2 ≤ l.issued a.1
  held : ∀ w a, l.inHand w = some a → 1 ≤ a.2 ∧ a.2 ≤ l.issued a.1 ∧ a ∉ l.started
  alone : ∀ v w a, l.inHand v = some a → l.inHand w = some a → v = w

theorem sound_empty : (empty : Ledger W P).Sound max :=
  ⟨List.nodup_nil, by simp [empty], by simp [empty], by simp [empty]⟩

section
variable [DecidableEq W] [DecidableEq P] {w : W}

theorem issued_mono (l : Ledger W P) (w : W) (p q : P) : l.issued q ≤ (l.issue w p).issued q := by
  by_cases same : q = p
  · subst same
    simp [issue]
  · simp [issue, same]

theorem Sound.issue (sound : l.Sound max) (w : W) (p : P) : (l.issue w p).Sound max where
  distinct := sound.distinct
  bounded a started := by
    obtain ⟨positive, small, old⟩ := sound.bounded a started
    exact ⟨positive, small, old.trans (l.issued_mono w p a.1)⟩
  held v a given := by
    by_cases same : v = w
    · subst same
      simp only [Ledger.issue, Function.update_self, Option.some.injEq] at given
      subst given
      refine ⟨by simp, by simp [Ledger.issue], fun started => ?_⟩
      have old := (sound.bounded _ started).2.2
      simp only at old
      omega
    · simp only [Ledger.issue, Function.update_of_ne same] at given
      obtain ⟨positive, old, fresh⟩ := sound.held v a given
      exact ⟨positive, old.trans (l.issued_mono w p a.1), fresh⟩
  alone u v a first second := by
    have news (w' : W) (given : l.inHand w' = some a) : a ≠ (p, l.issued p + 1) := by
      rintro rfl
      have old := (sound.held w' _ given).2.1
      simp only at old
      omega
    by_cases left : u = w
    · by_cases right : v = w
      · exact left.trans right.symm
      · simp only [Ledger.issue, left, Function.update_self, Function.update_of_ne right] at first second
        exact absurd (Option.some.inj first).symm (news v second)
    · by_cases right : v = w
      · simp only [Ledger.issue, right, Function.update_self, Function.update_of_ne left] at first second
        exact absurd (Option.some.inj second).symm (news u first)
      · simp only [Ledger.issue, Function.update_of_ne left, Function.update_of_ne right] at first second
        exact sound.alone u v a first second

omit [DecidableEq P] in
theorem drop_inHand {v : W} {a : P × Nat} (given : (l.drop w).inHand v = some a) :
    v ≠ w ∧ l.inHand v = some a := by
  by_cases same : v = w
  · simp [drop, same] at given
  · exact ⟨same, by simpa [drop, same] using given⟩

omit [DecidableEq P] in
theorem Sound.drop (sound : l.Sound max) (w : W) : (l.drop w).Sound max where
  distinct := sound.distinct
  bounded := sound.bounded
  held v a given := sound.held v a (drop_inHand given).2
  alone u v a first second := sound.alone u v a (drop_inHand first).2 (drop_inHand second).2

omit [DecidableEq P] in
theorem Sound.start (sound : l.Sound max) (small : ∀ a, l.inHand w = some a → a.2 ≤ max) :
    (l.start w).Sound max := by
  cases given : l.inHand w with
  | none =>
      have same : l.start w = l.drop w := by simp [Ledger.start, Ledger.drop, given]
      exact same ▸ sound.drop w
  | some a =>
      obtain ⟨positive, old, fresh⟩ := sound.held w a given
      constructor
      case distinct =>
        simp only [Ledger.start, given, Option.toList_some]
        exact List.nodup_append.mpr ⟨sound.distinct, List.nodup_singleton a,
          fun b before c last same => fresh (List.mem_singleton.mp last ▸ same ▸ before)⟩
      case bounded =>
        intro b started
        simp only [Ledger.start, given, Option.toList_some, List.mem_append,
          List.mem_singleton] at started
        rcases started with before | rfl
        · exact sound.bounded b before
        · exact ⟨positive, small b given, old⟩
      case held =>
        intro v b holding
        obtain ⟨apart, holding⟩ := drop_inHand holding
        obtain ⟨positive, old, unstarted⟩ := sound.held v b holding
        refine ⟨positive, old, ?_⟩
        simp only [Ledger.start, given, Option.toList_some, List.mem_append, List.mem_singleton]
        rintro (before | rfl)
        · exact unstarted before
        · exact apart (sound.alone v w b holding given)
      case alone => exact (sound.drop w).alone

end

/-- An item is started at most `max` times. -/
theorem Sound.count_le [DecidableEq P] (sound : l.Sound max) (p : P) :
    (l.started.map Prod.fst).count p ≤ max := by
  let numbers := (l.started.filter fun a => a.1 = p).map Prod.snd
  have size : (l.started.map Prod.fst).count p = numbers.length := by
    rw [List.count_eq_countP, List.countP_map, List.countP_eq_length_filter, List.length_map]
    congr 1
  have distinct : numbers.Nodup := by
    refine (sound.distinct.filter _).map_on fun a left b right same => ?_
    have first := of_decide_eq_true (List.mem_filter.mp left).2
    have second := of_decide_eq_true (List.mem_filter.mp right).2
    exact Prod.ext (first.trans second.symm) same
  have small : numbers ⊆ List.range' 1 max := by
    intro n member
    obtain ⟨a, kept, rfl⟩ := List.mem_map.mp member
    obtain ⟨positive, limit, -⟩ := sound.bounded a (List.mem_filter.mp kept).1
    exact List.mem_range'_1.mpr ⟨positive, by omega⟩
  have fits := (distinct.subperm small).length_le
  rw [List.length_range'] at fits
  omega

end Ledger
end Attempts
