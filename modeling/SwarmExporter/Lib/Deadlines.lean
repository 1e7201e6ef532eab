import Mathlib.Data.List.Induction

/-!
# The earliest of some deadlines

A deadline is an instant, or none for one that has passed at every instant. `consider` keeps the earlier
of two, so the fold of `consider` is due exactly when one of the deadlines is (`due_foldl_consider`), and
the time left until it says when the next of them will be.
-/

namespace SwarmExporter.Lib

/-- Whether the deadline has come at `now`. -/
def due (now : Nat) (deadline : Option Nat) : Bool := deadline.all fun time => decide (time ≤ now)

/-- The time left until a deadline, zero once it is due. -/
def timeLeft (now : Nat) (deadline : Option Nat) : Nat :=
  match deadline with
  | none => 0
  | some time => time - now

/-- The earlier of `deadline` and the earliest so far, if there is one. -/
def consider (earliest : Option (Option Nat)) (deadline : Option Nat) : Option (Option Nat) :=
  match earliest, deadline with
  | none, _ => some deadline
  | some (some _), none => some deadline
  | some (some current), some time => if time < current then some deadline else earliest
  | some none, _ => earliest

variable {now : Nat} {deadline earliest : Option Nat} {deadlines : List (Option Nat)}

theorem timeLeft_eq_zero : timeLeft now deadline = 0 ↔ due now deadline = true := by
  cases deadline with
  | none => simp [timeLeft, due]
  | some time => simp [timeLeft, due, Nat.sub_eq_zero_iff_le]

/-- A deadline that is not due is due when the time left is over, and not before. -/
theorem due_iff_of_timeLeft (h : 0 < timeLeft now deadline) (later : Nat) :
    due later deadline = true ↔ now + timeLeft now deadline ≤ later := by
  cases deadline with
  | none => simp [timeLeft] at h
  | some time =>
    simp only [timeLeft] at h ⊢
    simp only [due, Option.all_some, decide_eq_true_eq]
    omega

/-- The earlier of two deadlines is due as soon as one of them is. -/
theorem consider_some (earliest deadline : Option Nat) :
    ∃ first, consider (some earliest) deadline = some first ∧
      ∀ now, due now first = true ↔ due now earliest = true ∨ due now deadline = true := by
  cases earliest with
  | none => exact ⟨none, rfl, fun now => by simp [due]⟩
  | some current =>
    cases deadline with
    | none => exact ⟨none, rfl, fun now => by simp [due]⟩
    | some time =>
      by_cases hearlier : time < current
      · refine ⟨some time, by simp [consider, hearlier], fun now => ?_⟩
        simp only [due, Option.all_some, decide_eq_true_eq]
        omega
      · refine ⟨some current, by simp [consider, hearlier], fun now => ?_⟩
        simp only [due, Option.all_some, decide_eq_true_eq]
        omega

theorem foldl_consider_eq_none : deadlines.foldl consider none = none ↔ deadlines = [] := by
  constructor
  · intro h
    rcases List.eq_nil_or_concat deadlines with hnil | ⟨before, deadline, hlast⟩
    · exact hnil
    · rw [hlast, List.concat_eq_append, List.foldl_append, List.foldl_cons, List.foldl_nil] at h
      cases hbefore : before.foldl consider none with
      | none =>
        rw [hbefore] at h
        cases h
      | some earliest =>
        obtain ⟨first, hfirst, -⟩ := consider_some earliest deadline
        rw [hbefore, hfirst] at h
        cases h
  · rintro rfl
    rfl

/-- **The earliest deadline is due as soon as one of them is.** -/
theorem due_foldl_consider (h : deadlines.foldl consider none = some earliest) (now : Nat) :
    due now earliest = true ↔ ∃ deadline ∈ deadlines, due now deadline = true := by
  induction deadlines using List.reverseRecOn generalizing earliest with
  | nil => cases h
  | append_singleton deadlines deadline ih =>
    rw [List.foldl_append, List.foldl_cons, List.foldl_nil] at h
    cases hbefore : deadlines.foldl consider none with
    | none =>
      rw [hbefore] at h
      cases h
      simp [foldl_consider_eq_none.1 hbefore]
    | some current =>
      obtain ⟨first, hfirst, hdue⟩ := consider_some current deadline
      rw [hbefore, hfirst] at h
      cases h
      rw [hdue, ih hbefore]
      simp [or_and_right, exists_or]

end SwarmExporter.Lib
