import Mathlib

/-! A cell whose revisions count up from zero and begin again after each removal. A revision names a
value only within one generation; the removals and writes so far name it for good. -/
namespace MapGo

/-- How often a cell has been removed and written. -/
structure Stamp where
  removals : Nat := 0
  writes : Nat := 0
  deriving DecidableEq, Repr

structure Generation where
  stamp : Stamp := {}
  /-- The writes before each generation. -/
  starts : Nat → Nat := fun _ => 0

namespace Generation

def write (g : Generation) : Generation :=
  { g with stamp := { g.stamp with writes := g.stamp.writes + 1 } }

def remove (g : Generation) : Generation where
  stamp := { g.stamp with removals := g.stamp.removals + 1 }
  starts := Function.update g.starts (g.stamp.removals + 1) g.stamp.writes

/-- The revision in the cell counts the writes of its generation. -/
def Tracks (g : Generation) (revision : Option Nat) : Prop :=
  g.stamp.writes = g.starts g.stamp.removals + revision.elim 0 (· + 1)

/-- At the stamp the cell held the revision. -/
def Seen (g : Generation) (stamp : Stamp) (revision : Nat) : Prop :=
  stamp.removals ≤ g.stamp.removals ∧ stamp.writes = g.starts stamp.removals + revision + 1

variable {g : Generation} {stamp : Stamp} {revision : Nat}

theorem Tracks.write {current : Option Nat} (tracks : g.Tracks current) :
    g.write.Tracks (some (current.elim 0 (· + 1))) := by
  simp only [Tracks, Generation.write, Option.elim_some] at tracks ⊢
  omega

theorem tracks_remove : g.remove.Tracks none := by
  simp [Tracks, Generation.remove]

theorem Tracks.seen (tracks : g.Tracks (some revision)) : g.Seen g.stamp revision := by
  refine ⟨le_rfl, ?_⟩
  simp only [Tracks, Option.elim_some] at tracks
  omega

theorem Seen.write (seen : g.Seen stamp revision) : g.write.Seen stamp revision := seen

theorem Seen.remove (seen : g.Seen stamp revision) : g.remove.Seen stamp revision := by
  obtain ⟨before, writes⟩ := seen
  refine ⟨Nat.le_succ_of_le before, ?_⟩
  have earlier : stamp.removals ≠ g.stamp.removals + 1 := by omega
  have start : g.remove.starts stamp.removals = g.starts stamp.removals :=
    Function.update_of_ne earlier ..
  rw [start, writes]

/-- A revision that is found again is of the same value exactly when there was no removal. -/
theorem Seen.eq_iff (seen : g.Seen stamp revision) (tracks : g.Tracks (some revision)) :
    stamp = g.stamp ↔ stamp.removals = g.stamp.removals := by
  constructor
  · intro same
    rw [same]
  · intro removals
    obtain ⟨-, writes⟩ := seen
    simp only [Tracks, Option.elim_some] at tracks
    rw [removals] at writes
    have counts : stamp.writes = g.stamp.writes := by omega
    exact (Stamp.mk.injEq ..).mpr ⟨removals, counts⟩

end Generation
end MapGo
