import Mathlib.Algebra.Group.Nat.Defs
import Mathlib.Order.Lattice

/-!
# Exponential backoff

The wait after a failure starts at `initial` and doubles with every further one, up to `cap`. A wait that
is doubled in place and capped each time is at least the closed form, whatever else doubled it too.
-/

namespace SwarmExporter.Lib

/-- The wait after `failures` earlier failures in a row. -/
def backoff (initial cap failures : Nat) : Nat := min (initial * 2 ^ failures) cap

variable {initial cap failures wait : Nat}

theorem backoff_zero (h : initial ≤ cap) : backoff initial cap 0 = initial := by
  rw [backoff, Nat.pow_zero, Nat.mul_one, Nat.min_eq_left h]

theorem backoff_succ :
    backoff initial cap (failures + 1) = min (2 * backoff initial cap failures) cap := by
  unfold backoff
  rw [Nat.pow_succ, ← Nat.mul_assoc]
  omega

/-- A wait that is doubled does not get shorter. -/
theorem le_grown (h : wait ≤ cap) : wait ≤ min (2 * wait) cap := by
  omega

/-- Doubling the wait keeps it ahead of the closed form. -/
theorem backoff_le_grown (hcap : wait ≤ cap) (h : backoff initial cap (failures - 1) ≤ wait) :
    backoff initial cap failures ≤ min (2 * wait) cap := by
  cases failures with
  | zero => exact h.trans (le_grown hcap)
  | succ failures =>
    rw [Nat.add_sub_cancel] at h
    rw [backoff_succ]
    omega

end SwarmExporter.Lib
