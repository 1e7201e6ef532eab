import Mathlib.Data.BitVec

/-!
# The first bits of a bit vector

Bits are counted from the most significant one. Masking with the first `count` bits set compares two
vectors on these bits (`and_mask_eq_iff`).
-/

namespace SwarmExporter.Lib

variable {width count : Nat} {left right : BitVec width}

/-- `left` and `right` have the same first `count` bits. -/
def AgreeOn (count : Nat) (left right : BitVec width) : Prop :=
  ∀ i < count, left.getMsbD i = right.getMsbD i

instance : Decidable (AgreeOn count left right) :=
  inferInstanceAs (Decidable (∀ i < count, left.getMsbD i = right.getMsbD i))

theorem getMsbD_mask (h : count ≤ width) (i : Nat) :
    (BitVec.allOnes width <<< (width - count)).getMsbD i = decide (i < count) := by
  rw [BitVec.getMsbD_shiftLeft, BitVec.getMsbD_allOnes]
  congr 1
  apply propext
  omega

/-- **Masks compare prefixes.** -/
theorem and_mask_eq_iff (h : count ≤ width) :
    left &&& BitVec.allOnes width <<< (width - count) =
        right &&& BitVec.allOnes width <<< (width - count) ↔ AgreeOn count left right := by
  constructor
  · intro heq i hi
    have hbit := congrArg (BitVec.getMsbD · i) heq
    simpa only [BitVec.getMsbD_and, getMsbD_mask h, hi, decide_true, Bool.and_true] using hbit
  · intro hagree
    apply BitVec.eq_of_getMsbD_eq
    intro i _
    simp only [BitVec.getMsbD_and, getMsbD_mask h]
    by_cases hi : i < count
    · rw [hagree i hi]
    · simp [hi]

/-- The first bits of a prepended vector. -/
theorem agreeOn_append_iff {width' : Nat} {head : BitVec width} {tail : BitVec width'}
    {other : BitVec (width + width')} : AgreeOn width (head ++ tail) other ↔
      ∀ i < width, head.getMsbD i = other.getMsbD i := by
  refine forall₂_congr fun i hi => ?_
  rw [BitVec.getMsbD_append, if_neg (by omega)]

end SwarmExporter.Lib
